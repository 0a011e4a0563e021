import EdmxGen.Proofs.Command.Failure
import EdmxGen.Proofs.Session.Fetch
import EdmxGen.Proofs.Session.Repeat

/-!
# An update repeats a generation

A file that was generated is updated from its header alone: the same templates are found, the same
metadata is asked for, and the file is the same but for the moment of its creation (`update_again`).
The key policy is no part of the header. One that was given to the generation only is not found
again, so keys may change (`update_forgets_policy`).
-/

namespace EdmxGen.Command

open Session FileSystem

variable {env env' : Environment} {w w' v : World}

/-! ## What a successful generation has done -/

theorem of_run_orFailIn {α : Type} {context : String} {s : Session (Except Failure α)} {a : α}
    (h : (Attempt.orFailIn context s).run.run w = (.ok a, w')) : s.run w = (.ok a, w') :=
  of_run_mapError h

theorem of_run_resolveTemplates {dir : String} {d : Text.Dictionary}
    (h : (resolveTemplates dir).run w = (.ok d, w')) :
    (Template.resolve templateStore dir).run.run w = (.ok d, w') := of_run_mapError h

theorem generateFile_ok {config : Config} {settings : FileSettings} {root output : String}
    {policy : KeyPolicy} {file : GeneratedFile}
    (h : (generateFile env config settings root output policy).run.run w = (.ok file, w')) :
    ∃ d w₁ w₂, (Template.resolve templateStore (config.templateDir root)).run.run w = (.ok d, w₁) ∧
      (Generator.generate (source env) Generator.dumpModel policy settings d).run.run w₁
        = (.ok file, w₂) ∧
      w₁.files.write output (String.ofList file.contents) = .ok w'.files := by
  obtain ⟨d, w₁, hresolve, h⟩ := ok_of_run_bind h
  obtain ⟨file', w₂, hgo, h⟩ := ok_of_run_bind h
  obtain ⟨_, w₃, hwrite, h⟩ := ok_of_run_bind h
  obtain ⟨_, w₄, hnotify, h⟩ := of_run_lift_bind h
  obtain ⟨hfile, rfl⟩ := Prod.mk.inj h
  obtain rfl := Except.ok.inj hfile
  have hgenerate := of_run_orFailIn hgo
  refine ⟨d, w₁, w₂, of_run_resolveTemplates (of_run_orFailIn hresolve), hgenerate, ?_⟩
  rw [quiet_notify _ hnotify,
    ← quiet_generate env Generator.dumpModel policy settings d hgenerate]
  exact change_ok (of_run_orFileIn hwrite)

/-- The settings are those that the options of a generation ask for. -/
structure Stores (o : GenerateOptions) (s : FileSettings) : Prop where
  address : ∀ raw, o.address = some raw → Address.normalize raw = .ok s.service.source
  modularity : ∀ m, o.modularity = some m → s.service.modularity = m
  request : s.service.requestOptions = o.request
  template : ∀ name, o.template = some name → s.template = some name

/-! ## Templates that stay -/

structure SameTemplates (place : List String) (fs fs' : FileSystem) : Prop where
  listed : (fs'.listed place).filter Template.isTemplate
    = (fs.listed place).filter Template.isTemplate
  texts : ∀ name, Template.isTemplate name = true →
    fs'.textAt? (place ++ [name]) = fs.textAt? (place ++ [name])

theorem SameTemplates.trans {place : List String} {fs fs' fs'' : FileSystem}
    (h : SameTemplates place fs fs') (h' : SameTemplates place fs' fs'') :
    SameTemplates place fs fs'' :=
  ⟨h'.listed.trans h.listed, fun name hname => (h'.texts name hname).trans (h.texts name hname)⟩

theorem sameTemplates_write {place : List String} {fs fs' : FileSystem} {path text : String}
    (hw : fs.write path text = .ok fs')
    (h : ∀ name, Template.isTemplate name = true → fs.target path ≠ place ++ [name]) :
    SameTemplates place fs fs' :=
  ⟨filter_listed_write hw h,
    fun name hname => (textAt?_write hw).2.2 _ (Ne.symm (h name hname))⟩

/-- Making the directory of a file makes nothing in another directory that is taken for a template.
-/
def Clear (path dir : String) (fs : FileSystem) : Prop :=
  ∀ above, Path.parent? path = some above → ∀ name, Template.isTemplate name = true →
    fs.target dir ++ [name] ∉ passes (fs.start above) (Path.parts above)

theorem sameTemplates_ready {path dir : String} {fs fs' : FileSystem} (h : DirReady path fs fs')
    (hclear : Clear path dir fs) : SameTemplates (fs.target dir) fs fs' := by
  refine ⟨?_, fun name _ => h.sameFiles.texts _⟩
  cases h with
  | rootless _ => rfl
  | seen _ _ => rfl
  | made hdir hmade => exact filter_listed_makeDirs hmade (hclear _ hdir)

theorem Clear.later {path dir : String} {fs fs' : FileSystem} (h : Clear path dir fs)
    (hhere : fs'.here = fs.here) : Clear path dir fs' := by
  intro above habove name hname
  rw [target_congr hhere, start_congr hhere]
  exact h above habove name hname

/-- Writing the output and saving the configuration leave the templates of the project. -/
theorem templates_stay {lookup : String → Option String} {dir output text saved : String}
    {fs fs₁ fs₂ fs' : FileSystem} (hout : ¬ fs.target dir <+: fs.target output)
    (hclear : Clear (Config.path lookup) dir fs) (hwrite : fs.write output text = .ok fs₁)
    (hready : DirReady (Config.path lookup) fs₁ fs₂)
    (hsave : fs₂.write (Config.path lookup) saved = .ok fs') :
    SameTemplates (fs.target dir) fs fs' := by
  have hfirst : SameTemplates (fs.target dir) fs fs₁ :=
    sameTemplates_write hwrite fun name _ heq => hout ⟨[name], heq.symm⟩
  have hhere : fs₁.here = fs.here := (lasts_write hwrite).here
  have hsecond := sameTemplates_ready hready (hclear.later hhere)
  rw [target_congr hhere] at hsecond
  have hthird : SameTemplates (fs.target dir) fs₂ fs' :=
    sameTemplates_write hsave fun name hname => target_configPath_ne lookup fs₂ _ hname
  exact (hfirst.trans hsecond).trans hthird

/-! ## Requests before the fetch -/

/-- The step sends no request. -/
abbrev Mute {α : Type} (x : Session α) : Prop := Keeps World.requests x

theorem mute_notify (n : Notice) : Mute (notify n) := leads_notify (fun _ _ => rfl) n

theorem mute_nextRefusal : Mute nextRefusal := leads_nextRefusal fun _ => rfl

theorem mute_ask {α : Type} (a : Asking α) : Mute (Attempt.ask a).run :=
  leads_ask (fun _ _ => rfl) a

theorem mute_change (f : FileSystem → Except FileErrorKind FileSystem) : Mute (change f) :=
  leads_change mute_nextRefusal fun _ _ _ => rfl

theorem mute_resolve (dir : String) : Mute (Template.resolve templateStore dir).run :=
  leads_resolve mute_notify mute_nextRefusal (mute_change _) fun _ _ => mute_change _

/-! ## The whole generation -/

theorem selectTemplate_empty (requested : Option String) (template : String × String) :
    Generator.selectTemplate requested .empty ≠ .ok template := by
  intro h
  cases requested with
  | none => nomatch h
  | some name => nomatch h

/-- What a generation has done with these templates to make this file: the templates were found or
copied, the file was made and written, and its address was remembered. -/
structure Generated (env : Environment) (o : GenerateOptions) (config : Config) (w : World)
    (templates : Text.Dictionary) (file : GeneratedFile) (w₁ w₂ w₃ : World) : Prop where
  stores : Stores o file.settings
  requests : w₁.requests = w.requests
  reaches : Reaches w.files w₁.files
  holds : Holds w₁.files (config.templateDir o.root) templates
  made : ∃ w₀, (Generator.generate (source env) Generator.dumpModel
    (o.keyPolicy.getD config.settings.keyPolicy) ⟨file.settings.service, o.template⟩
    templates).run.run w₁ = (.ok file, w₀)
  write : w₁.files.write o.output (String.ofList file.contents) = .ok w₂.files
  save : (saveConfig env.configPath (config.remember file.settings.service.source)).run.run w₂
    = (.ok (), w₃)

theorem chooseModularity_given {m chosen : Modularity} {config : Config}
    (h : (chooseModularity env (some m) config).run.run w = (.ok chosen, w')) : chosen = m :=
  (Except.ok.inj (Prod.mk.inj h).1).symm

theorem configIn_of_load {config : Config}
    (h : (loadConfig env.configPath).run.run w = (.ok config, w')) :
    configIn env w = .ok config := by
  unfold configIn
  rw [h]

theorem generate_done {o : GenerateOptions} {config : Config}
    (h : (run env (.generate o)).run.run w = (.ok (), w'))
    (hconfig : configIn env w = .ok config) :
    ∃ templates file w₁ w₂ w₃, Generated env o config w templates file w₁ w₂ w₃ ∧
      w'.files = w₃.files := by
  obtain ⟨config', w₁, hload, h⟩ := ok_of_run_bind h
  obtain rfl : config' = config := by
    unfold configIn at hconfig
    rw [hload] at hconfig
    exact Except.ok.inj hconfig
  obtain ⟨address, w₂, haddress, h⟩ := ok_of_run_bind h
  obtain ⟨modularity, w₃, hmodularity, h⟩ := ok_of_run_bind h
  obtain ⟨_, w₄, hnotify, h⟩ := of_run_lift_bind h
  obtain ⟨file, w₅, hfile, h⟩ := ok_of_run_bind h
  obtain ⟨_, w₆, hsave, h⟩ := ok_of_run_bind h
  obtain ⟨_, _, hprint⟩ := of_run_lift h
  obtain ⟨d, w₇, w₈, hresolve, hgenerate, hwrite⟩ := generateFile_ok hfile
  have hfiles : w₄.files = w.files := by
    rw [quiet_notify _ hnotify, quiet_chooseModularity _ _ _ hmodularity,
      quiet_chooseAddress _ _ _ haddress, quiet_loadConfig _ hload]
  have hrequests : w₇.requests = w.requests := by
    rw [mute_resolve _ hresolve, mute_notify _ hnotify,
      leads_chooseModularity mute_ask _ _ _ hmodularity,
      leads_chooseAddress mute_ask _ _ _ haddress,
      leads_loadConfig mute_notify mute_nextRefusal _ hload]
  obtain ⟨template, _, _, _, htemplate, _, _, _, _, _, _, hcompose⟩ :=
    Generator.generate_ok hgenerate
  have hholds : Holds w₇.files (config'.templateDir o.root) d := by
    rcases resolve_ok hresolve with rfl | hholds
    · exact absurd htemplate (selectTemplate_empty _ _)
    · exact hholds
  have hsettings : file.settings = ⟨⟨address, modularity, o.request⟩, some template.1⟩ := by
    rw [Generator.compose_dumpModel hcompose]
  have hstores : Stores o file.settings := by
    rw [hsettings]
    refine ⟨fun raw hraw => ?_, fun m hm => ?_, rfl, fun name hname => ?_⟩
    · rw [hraw] at haddress
      exact chooseAddress_given haddress
    · rw [hm] at hmodularity
      exact chooseModularity_given hmodularity
    · rw [hname] at htemplate
      exact congrArg some (Generator.selectTemplate_some_iff.1 htemplate).1
  have hreaches : Reaches w.files w₇.files := by
    rw [← hfiles]
    exact reaches_resolve hresolve
  refine ⟨d, file, w₇, w₅, w₆, ⟨hstores, hrequests, hreaches, hholds, ⟨w₈, ?_⟩, hwrite, ?_⟩,
    quiet_print _ hprint⟩
  · rw [hsettings]
    exact hgenerate
  · rw [hsettings]
    exact hsave

/-! ## The update -/

theorem settingsFor_decoded {config : Config} {text : String} {s : FileSettings}
    (h : Header.decode text.toList = .ok s) :
    (settingsFor env config text).run.run w = (.ok s, w) := by
  unfold settingsFor
  rw [h]
  rfl

/-- With templates that are there, a file that can be made and written is. -/
theorem generateFile_run (hv : v.refusals = []) {config : Config} {settings : FileSettings}
    {root output : String} {policy : KeyPolicy} {d : Text.Dictionary} {file : GeneratedFile}
    {files : FileSystem} (hholds : Holds v.files (config.templateDir root) d)
    (hmade : ((Generator.generate (source env) Generator.dumpModel policy settings d).run.run v).1
      = .ok file)
    (hwrite : v.files.write output (String.ofList file.contents) = .ok files) :
    ∃ requests notices, (generateFile env config settings root output policy).run.run v
      = (.ok file, { v with files, requests, notices }) := by
  have hresolve : (resolveTemplates (config.templateDir root)).run v = (.ok d, v) :=
    run_mapError (resolve_run hv hholds)
  rcases hgo : (Generator.generate (source env) Generator.dumpModel policy settings d).run.run v
    with ⟨r, v₁⟩
  obtain rfl : r = .ok file := by rw [← hmade, hgo]
  obtain ⟨requests, notices, rfl⟩ := talks_generate env Generator.dumpModel policy settings d hgo
  have hput : (writeFile output (String.ofList file.contents)).run { v with requests, notices }
      = (.ok (), { v with files, requests, notices }) :=
    run_change (w := { v with requests, notices })
      (f := fun fs => fs.write output (String.ofList file.contents)) hv hwrite
  have hfile := run_orFailIn hgo "Failed to generate service code"
  refine ⟨requests, notices ++ [.wrote output], ?_⟩
  unfold generateFile
  dsimp only
  rw [run_bind_ok (run_orFailIn hresolve _)]
  show (Attempt.orFailIn _ (Generator.generate _ _ _ _ _).run >>= _).run.run v = _
  rw [run_bind_ok hfile, run_bind_ok (run_orFileIn hput _)]
  rfl

/-- The text of a file that shows a model, made for settings at a moment. -/
def written (s : FileSettings) (created : Moment) (model : ServiceModel) : String :=
  String.ofList (Header.encode s.toJson created ++ model.dump)

/-- A text shows one model only. -/
theorem written_inj {s : FileSettings} {created : Moment} {m m' : ServiceModel}
    (h : written s created m = written s created m') : m = m' := by
  have hdump : m.dump = m'.dump := List.append_cancel_left (String.ofList_injective h)
  have hread := ServiceModel.ofText_dump m
  rw [hdump, ServiceModel.ofText_dump] at hread
  exact (Except.ok.inj hread).symm

/-- A generation that asks nothing succeeds where the templates are there, the service describes
itself and both files can be written. -/
theorem generate_run_given (hw : w.refusals = []) {config : Config} {o : GenerateOptions}
    (hconfig : (loadConfig env.configPath).run.run w = (.ok config, w)) {raw : String}
    (hgiven : o.address = some raw) {s : FileSettings}
    (haddress : Address.normalize raw = .ok s.service.source)
    (hmodularity : o.modularity = some s.service.modularity)
    (hrequest : o.request = s.service.requestOptions) {d : Text.Dictionary}
    (hholds : Holds w.files (config.templateDir o.root) d) {template : String × String}
    (htemplate : Generator.selectTemplate o.template d = .ok template)
    (hused : s.template = some template.1) {edmx : Xml.Element}
    (hmetadata : metadataOf s.service.source
      (replyTo env w s.service.source s.service.requestOptions) = .ok edmx)
    {model : ServiceModel}
    (hmodel : projectService (o.keyPolicy.getD config.settings.keyPolicy) edmx = .ok model)
    {files files' : FileSystem}
    (hwrite : w.files.write o.output (written s env.now model) = .ok files)
    (hready : DirReady env.configPath files files)
    (hsave : files.write env.configPath (String.ofList (config.remember s.service.source).write)
      = .ok files') :
    ∃ w', (run env (.generate o)).run.run w = (.ok (), w') ∧ w'.files = files' := by
  have hchosen : (chooseAddress env o.address config).run.run w = (.ok s.service.source, w) := by
    rw [hgiven]
    show ((Address.normalize raw).mapError _, w) = _
    rw [haddress]
    rfl
  have hshape : (chooseModularity env o.modularity config).run.run w
      = (.ok s.service.modularity, w) := by
    rw [hmodularity]
    rfl
  let generating : Notice := .generating s.service.modularity s.service.source
  let told : World := { w with notices := w.notices ++ [generating] }
  have htold : (notify generating).run w = ((), told) := rfl
  let settings : FileSettings := ⟨⟨s.service.source, s.service.modularity, o.request⟩, o.template⟩
  have hfetch : ((fetch env s.service.source o.request).run told).1 = .ok edmx := by
    rw [fetch_result, hrequest]
    exact hmetadata
  have hfile : dumped { settings with template := some template.1 } env.now model
      = dumped s env.now model := by
    show dumped ⟨⟨s.service.source, s.service.modularity, o.request⟩, some template.1⟩ env.now
      model = _
    rw [← hused, hrequest]
  have hmade : ((Generator.generate (source env) Generator.dumpModel
      (o.keyPolicy.getD config.settings.keyPolicy) settings d).run.run told).1
      = .ok (dumped s env.now model) := by
    rw [← hfile]
    exact generate_run htemplate hfetch hmodel
  obtain ⟨requests, notices, hgo⟩ := generateFile_run (v := told) hw hholds hmade hwrite
  let made : World := { told with files, requests, notices }
  obtain ⟨notices', hsaved⟩ := saveConfig_run (v := made) hw hready (Lasts.refl files) hsave
  have hrun : (run env (.generate o)).run.run w
      = (.ok (), { made with
          files := files'
          notices := notices'
          output := made.output ++ [⟨.success, "Generated"⟩, .plain (" " ++ o.output ++ " (" ++
            countTypes model ++ ", template " ++ s.template.getD "-" ++ ")")] ++ [.plain "\n"] }) := by
    show (generateFor env o).run.run w = _
    unfold generateFor
    rw [run_bind_ok hconfig, run_bind_ok hchosen, run_bind_ok hshape, run_bind_ok (run_lift htold)]
    show (generateFile env config settings o.root o.output _ >>= _).run.run told = _
    rw [run_bind_ok hgo]
    show (saveConfig env.configPath (config.remember s.service.source) >>= _).run.run made = _
    rw [run_bind_ok hsaved]
    rfl
  exact ⟨_, hrun, rfl⟩

/-- What a generation left: its file, the configuration and the templates. -/
structure Left (configPath dir output : String) (config : Config) (templates : Text.Dictionary)
    (contents : List Char) (fs : FileSystem) : Prop where
  output : fs.read output = .ok (String.ofList contents)
  config : fs.read configPath = .ok (String.ofList config.write)
  templates : Holds fs dir templates

theorem Generated.left {lookup : String → Option String} {o : GenerateOptions} {config : Config}
    {d : Text.Dictionary} {file : GeneratedFile} {w₁ w₂ w₃ : World}
    (h : Generated env o config w d file w₁ w₂ w₃) (hlookup : env.configPath = Config.path lookup)
    (hnamed : w.files.Named)
    (hapart : Apart env.configPath (config.templateDir o.root) o.output w.files)
    (hclear : Clear env.configPath (config.templateDir o.root) w.files) :
    Lasts w₂.files w₃.files ∧ Left env.configPath (config.templateDir o.root) o.output
      (config.remember file.settings.service.source) d file.contents w₃.files := by
  obtain ⟨fs, hready, hsave⟩ := saveConfig_ok h.save
  have hlasts : Lasts w₂.files w₃.files := hready.lasts.trans (lasts_write hsave)
  have hhere : w₁.files.here = w.files.here := h.reaches.lasts.here
  have hhere₂ : w₂.files.here = w.files.here := (lasts_write h.write).here.trans hhere
  have houtput : w₃.files.textAt? (w₂.files.target o.output)
      = w₂.files.textAt? (w₂.files.target o.output) := by
    rw [(textAt?_write hsave).2.2 _ ?_, hready.sameFiles.texts]
    rw [target_congr hhere₂, target_congr (hready.lasts.here.trans hhere₂)]
    exact hapart.config
  have hstay : SameTemplates (w₁.files.target (config.templateDir o.root)) w₁.files w₃.files := by
    rw [hlookup] at hready hsave hclear
    refine templates_stay ?_ (hclear.later hhere) h.write hready hsave
    rw [target_congr hhere, target_congr hhere]
    exact hapart.templates
  refine ⟨hlasts, hlasts.read (read_write h.write) houtput, read_write hsave, ?_⟩
  exact h.holds.later (h.reaches.named hnamed) ((lasts_write h.write).trans hlasts) hstay.listed
    hstay.texts

/-- An update of a file that a generation left makes the file that it can make, and saves the
configuration as it was. -/
theorem updateFile_run (hv : v.refusals = []) {root output : String} {config : Config}
    {d : Text.Dictionary} {contents : List Char} {s : FileSettings} {file : GeneratedFile}
    (hleft : Left env.configPath (config.templateDir root) output config d contents v.files)
    (hdecode : Header.decode contents = .ok s)
    (hmade : ∀ notices, ((Generator.generate (source env) Generator.dumpModel
      config.settings.keyPolicy s d).run.run { v with notices }).1 = .ok file)
    (hsaved : (saveConfig env.configPath config).run.run w = (.ok (), w'))
    (hlasts : Lasts w'.files v.files) (hremember : config.remember s.service.source = config)
    {fs : FileSystem} (hwrite : v.files.write output (String.ofList file.contents) = .ok fs) :
    ∃ v', (run env (.update output root)).run.run v = (.ok (), v') ∧ v'.asked = v.asked ∧
      fs.write env.configPath (String.ofList config.write) = .ok v'.files := by
  have hsettings : (settingsFor env config (String.ofList contents)).run.run v = (.ok s, v) := by
    refine settingsFor_decoded ?_
    rw [String.toList_ofList]
    exact hdecode
  let told : World := { v with notices := v.notices ++ [.updating output s.service.source] }
  have htold : (notify (.updating output s.service.source)).run v = ((), told) := rfl
  have hrefusals : told.refusals = [] := hv
  have hwritten : told.files.write output (String.ofList file.contents) = .ok fs := hwrite
  obtain ⟨requests, notices, hgo⟩ :=
    generateFile_run hrefusals hleft.templates (hmade told.notices) hwritten
  let made : World := { told with files := fs, requests, notices }
  have hmadeLasts : Lasts w'.files made.files := hlasts.trans (lasts_write hwrite)
  obtain ⟨files, notices', hput, hagain⟩ := saveConfig_again (v := made) hv hsaved hmadeLasts config
  have hremembered : (rememberAddress env.configPath config s.service.source).run.run made
      = (.ok (), { made with files, notices := notices' }) := by
    unfold rememberAddress
    rw [hremember]
    exact hagain
  have hrun : (run env (.update output root)).run.run v
      = (.ok (), { made with
          files
          notices := notices'
          output := made.output ++ [⟨.success, "Updated"⟩,
            .plain (" " ++ output ++ " (" ++ countTypes file.model ++ ")")] ++ [.plain "\n"] }) := by
    show (updateFile env output root).run.run v = _
    unfold updateFile
    rw [run_bind_ok (loadConfig_saved hv hleft.config)]
    show (Attempt.orFileIn _ (readFile output) >>= _).run.run v = _
    rw [run_bind_ok (run_orFileIn (run_readFile hv hleft.output) _), run_bind_ok hsettings]
    show (Attempt.lift (notify (.updating output s.service.source)) >>= _).run.run v = _
    rw [run_bind_ok (run_lift htold)]
    show (generateFile env config s root output config.settings.keyPolicy >>= _).run.run told = _
    rw [run_bind_ok hgo]
    show (rememberAddress env.configPath config s.service.source >>= _).run.run made = _
    rw [run_bind_ok hremembered]
    rfl
  exact ⟨_, hrun, rfl, hput⟩

/-- Once another output is written and the configuration is saved as it was, only the output
differs. -/
theorem Left.rewritten {configPath dir output text : String} {config : Config}
    {d : Text.Dictionary} {contents : List Char} {fs fs₁ fs₂ : FileSystem}
    (h : Left configPath dir output config d contents fs)
    (hapart : fs.target output ≠ fs.target configPath) (hwrite : fs.write output text = .ok fs₁)
    (hsave : fs₁.write configPath (String.ofList config.write) = .ok fs₂) :
    fs₂.read output = .ok text ∧ ∀ p, p ≠ fs.target output → fs₂.textAt? p = fs.textAt? p := by
  have hhere : fs₁.here = fs.here := (lasts_write hwrite).here
  refine ⟨(lasts_write hsave).read (read_write hwrite) ((textAt?_write hsave).2.2 _ ?_),
    fun p hp => ?_⟩
  · rw [target_congr hhere, target_congr hhere]
    exact hapart
  · by_cases hconfig : p = fs₁.target configPath
    · have hthere := (read_iff.1 h.config).2
      rw [hconfig, (textAt?_write hsave).2.1, target_congr hhere, hthere]
    · rw [(textAt?_write hsave).2.2 p hconfig, (textAt?_write hwrite).2.2 p hp]

variable {o : GenerateOptions} {config : Config} {d : Text.Dictionary} {file : GeneratedFile}
  {w₁ w₂ w₃ : World}

/-- A file that was generated shows the metadata of its service. Where the service says the same, it
can be made again for its settings, but for the moment and, if the configured key policy is another
one, for the keys. -/
theorem Generated.shown (h : Generated env o config w d file w₁ w₂ w₃) :
    ∃ edmx model',
      metadataOf file.settings.service.source (replyTo env w file.settings.service.source o.request)
        = .ok edmx ∧
      projectService (o.keyPolicy.getD config.settings.keyPolicy) edmx = .ok file.model ∧
      projectService config.settings.keyPolicy edmx = .ok model' ∧
      model'.withoutKeys = file.model.withoutKeys ∧
      file.contents = Header.encode file.settings.toJson env.now ++ file.model.dump ∧
      ∀ (env' : Environment) (v : World),
        (∀ sending, env'.network v.requests sending = env.network w.requests sending) →
        ((Generator.generate (source env') Generator.dumpModel config.settings.keyPolicy
          file.settings d).run.run v).1 = .ok (dumped file.settings env'.now model') := by
  obtain ⟨w₀, hmade⟩ := h.made
  obtain ⟨hdumped, edmx, model', hedmx, hmodel, hmodel', hkeys, hagain⟩ :=
    generate_again hmade config.settings.keyPolicy
  refine ⟨edmx, model', ?_, hmodel, hmodel', hkeys, ?_, fun env' v hreplies => ?_⟩
  · rw [← hedmx, ← h.stores.request]
    unfold replyTo
    rw [h.requests]
  · rw [hdumped]
    rfl
  · refine hagain env' v fun sending => ?_
    rw [h.requests]
    exact hreplies sending

/-- An update of a file that was generated writes the file that can be made for its settings, and
saves the configuration as it was. -/
theorem Generated.rewrite (hpath : env'.configPath = env.configPath) {file' : GeneratedFile}
    (h : Generated env o config w d file w₁ w₂ w₃) (hlasts : Lasts w₂.files w₃.files)
    (hleft : Left env.configPath (config.templateDir o.root) o.output
      (config.remember file.settings.service.source) d file.contents w₃.files)
    (hfiles : v.files = w₃.files) (hrefusals : v.refusals = [])
    (hdecode : Header.decode file.contents = .ok file.settings)
    (hmade : ∀ notices, ((Generator.generate (source env') Generator.dumpModel
      config.settings.keyPolicy file.settings d).run.run { v with notices }).1 = .ok file') :
    ∃ fs v', w₃.files.write o.output (String.ofList file'.contents) = .ok fs ∧
      (run env' (.update o.output o.root)).run.run v = (.ok (), v') ∧ v'.asked = v.asked ∧
      fs.write env.configPath
        (String.ofList (config.remember file.settings.service.source).write) = .ok v'.files := by
  obtain ⟨fs, hwrite⟩ := hlasts.write h.write (String.ofList file'.contents)
  have hsaved := h.save
  rw [← hpath] at hleft hsaved ⊢
  rw [← hfiles] at hleft hwrite ⊢
  let known := config.remember file.settings.service.source
  have hknown : Left env'.configPath (known.templateDir o.root) o.output known d file.contents
      v.files := hleft
  have hsavedLasts : Lasts w₃.files v.files := by
    rw [hfiles]
    exact Lasts.refl _
  obtain ⟨v', hrun, hasked, hput⟩ := updateFile_run hrefusals hknown hdecode hmade hsaved
    hsavedLasts (Config.remember_remember _ _) hwrite
  exact ⟨fs, v', hwrite, hrun, hasked, hput⟩

/-- What a generation has made can be made again from its header, but for the moment and, if the
configured key policy is another one, for the keys. -/
theorem Generated.update {lookup : String → Option String}
    (hlookup : env.configPath = Config.path lookup) (hpath : env'.configPath = env.configPath)
    (hdone : Generated env o config w d file w₁ w₂ w₃) (hnamed : w.files.Named)
    (hapart : Apart env.configPath (config.templateDir o.root) o.output w.files)
    (hclear : Clear env.configPath (config.templateDir o.root) w.files)
    (hfiles : v.files = w₃.files) (hrefusals : v.refusals = [])
    (hreplies : ∀ sending, env'.network v.requests sending = env.network w.requests sending) :
    ∃ edmx model',
      metadataOf file.settings.service.source (replyTo env w file.settings.service.source o.request)
        = .ok edmx ∧
      projectService (o.keyPolicy.getD config.settings.keyPolicy) edmx = .ok file.model ∧
      projectService config.settings.keyPolicy edmx = .ok model' ∧
      model'.withoutKeys = file.model.withoutKeys ∧
      v.files.read o.output = .ok (written file.settings env.now file.model) ∧
      ((∀ t ∈ file.settings.strings, ¬ Header.closing <:+: t.toList) →
        ∃ v', (run env' (.update o.output o.root)).run.run v = (.ok (), v') ∧
          v'.asked = v.asked ∧
          v'.files.read o.output = .ok (written file.settings env'.now model') ∧
          ∀ p, p ≠ v.files.target o.output → v'.files.textAt? p = v.files.textAt? p) := by
  obtain ⟨edmx, model', hedmx, hmodel, hmodel', hkeys, hcontents, hagain⟩ := hdone.shown
  obtain ⟨hlasts, hleft⟩ := hdone.left hlookup hnamed hapart hclear
  rw [hfiles]
  refine ⟨edmx, model', hedmx, hmodel, hmodel', hkeys, ?_, fun hstrings => ?_⟩
  · rw [hleft.output, hcontents]
    rfl
  have hdecode : Header.decode file.contents = .ok file.settings := by
    rw [hcontents]
    exact Header.decode_of_not_marked (p := []) env.now _ Header.not_infix_nil hstrings
  obtain ⟨fs, v', hwrite, hrun, hasked, hsave⟩ := hdone.rewrite hpath hlasts hleft hfiles hrefusals
    hdecode fun notices => hagain env' { v with notices } hreplies
  have hhere : w₃.files.here = w.files.here :=
    (hlasts.here.trans (lasts_write hdone.write).here).trans hdone.reaches.lasts.here
  have hapart' : w₃.files.target o.output ≠ w₃.files.target env.configPath := by
    rw [target_congr hhere, target_congr hhere]
    exact hapart.config
  obtain ⟨hread, hframe⟩ := hleft.rewritten hapart' hwrite hsave
  exact ⟨v', hrun, hasked, hread, hframe⟩

/-- A file that was generated can be updated with the same service, without questions. It keeps the
settings in its header, and but for the moment its text, unless the generation was given another key
policy than the configured one: then the keys are those of the latter. No other file changes. -/
theorem update_again {lookup : String → Option String}
    (hlookup : env.configPath = Config.path lookup) (hpath : env'.configPath = env.configPath)
    {o : GenerateOptions} {config : Config}
    (hgenerate : (run env (.generate o)).run.run w = (.ok (), w'))
    (hconfig : configIn env w = .ok config) (hnamed : w.files.Named)
    (hapart : Apart env.configPath (config.templateDir o.root) o.output w.files)
    (hclear : Clear env.configPath (config.templateDir o.root) w.files)
    (hfiles : v.files = w'.files) (hrefusals : v.refusals = [])
    (hreplies : ∀ sending, env'.network v.requests sending = env.network w.requests sending) :
    ∃ s edmx model, Stores o s ∧
      metadataOf s.service.source (replyTo env w s.service.source o.request) = .ok edmx ∧
      projectService (o.keyPolicy.getD config.settings.keyPolicy) edmx = .ok model ∧
      v.files.read o.output = .ok (written s env.now model) ∧
      ((∀ t ∈ s.strings, ¬ Header.closing <:+: t.toList) →
        ∃ v' model', (run env' (.update o.output o.root)).run.run v = (.ok (), v') ∧
          v'.asked = v.asked ∧ v'.files.read o.output = .ok (written s env'.now model') ∧
          (∀ p, p ≠ v.files.target o.output → v'.files.textAt? p = v.files.textAt? p) ∧
          projectService config.settings.keyPolicy edmx = .ok model' ∧
          model'.withoutKeys = model.withoutKeys ∧
          (o.keyPolicy.getD config.settings.keyPolicy = config.settings.keyPolicy →
            model' = model)) := by
  obtain ⟨d, file, w₁, w₂, w₃, hdone, hsame⟩ := generate_done hgenerate hconfig
  obtain ⟨edmx, model', hedmx, hmodel, hmodel', hkeys, hread, hupdate⟩ :=
    hdone.update hlookup hpath hnamed hapart hclear (hfiles.trans hsame) hrefusals hreplies
  refine ⟨file.settings, edmx, file.model, hdone.stores, hedmx, hmodel, hread, fun hstrings => ?_⟩
  obtain ⟨v', hrun, hasked, hwritten, hframe⟩ := hupdate hstrings
  refine ⟨v', model', hrun, hasked, hwritten, hframe, hmodel', hkeys, fun hpolicy => ?_⟩
  rw [hpolicy] at hmodel
  exact Except.ok.inj (hmodel'.symm.trans hmodel)

/-! ## A project with a service -/

/-- Metadata with one entity type, whose `Key` refers to no property. -/
def metadataText : List Char :=
  (["<edmx:Edmx ", "xmlns:edmx=\"\">", "<edmx:DataServices>", "<Schema Namespace=\"\">",
    "<EntityType Name=\"\">", "<Key/>", "<Property Name=\"\" ", "Type=\"\"/>", "</EntityType>",
    "</Schema>", "</edmx:DataServices>", "</edmx:Edmx>"] : List String).flatMap String.toList

def onlyProperty : Property := ⟨"", .classify "", true, [("Name", ""), ("Type", "")]⟩

def modelWith (key : Option Property) : ServiceModel :=
  ⟨[⟨"", ".", [onlyProperty], [], key, none, false, [], []⟩]⟩

/-- A service with that metadata, and a user who answers nothing. -/
def online : Environment where
  configPath := Config.path fun _ => none
  now := ⟨0, 0⟩
  network _ _ := .response { chunks := [Text.Utf8.encode metadataText] }
  prompter _ := .none

/-- A project with a template and a saved configuration. -/
def initialised : World where
  files :=
    { entries := [([".config"], .dir), ([".config", "odatatools"], .dir),
        ([".config", "odatatools", "config.toml"], .file (String.ofList (Config.write {}))),
        ([".vscode"], .dir), ([".vscode", "odatatools"], .dir),
        ([".vscode", "odatatools", "templates"], .dir),
        ([".vscode", "odatatools", "templates", "A.ot"], .file "")] }

/-- A generation that takes keys from the references of `Key` elements. -/
def referenced : GenerateOptions where
  output := "out.ts"
  address := some "http://h/svc"
  modularity := some .modular
  template := some "A.ot"
  keyPolicy := some .propertyRef

/-- The settings that this generation stores. -/
def stored : FileSettings := ⟨⟨"http://h/svc/$metadata", .modular, {}⟩, some "A.ot"⟩

theorem load_initialised :
    (loadConfig online.configPath).run.run initialised = (.ok {}, initialised) :=
  loadConfig_saved rfl (by decide +kernel)

theorem configIn_initialised : configIn online initialised = .ok {} :=
  configIn_of_load load_initialised

theorem named_initialised : initialised.files.Named := by decide

theorem apart_initialised :
    Apart online.configPath (Config.templateDir {} ".") "out.ts" initialised.files :=
  ⟨by decide +kernel, by decide +kernel⟩

theorem clear_initialised :
    Clear online.configPath (Config.templateDir {} ".") initialised.files := by
  intro above habove name _ hmem
  obtain rfl : ".config/odatatools" = above := Option.some.inj (habove ▸ by decide +kernel)
  have hshort : ∀ p ∈ passes (initialised.files.start ".config/odatatools")
      (Path.parts ".config/odatatools"), p.length < 4 := by decide +kernel
  have hlong : (initialised.files.target (Config.templateDir {} ".")).length = 3 := by
    decide +kernel
  have hlength := hshort _ hmem
  rw [List.length_append, hlong] at hlength
  exact absurd hlength (by simp)

theorem text_online :
    textOf stored.service.source (replyTo online initialised stored.service.source {})
      = .ok metadataText := by decide +kernel

/-- The models of a metadata document under both key policies. -/
def modelsOf (text : String) : Except Failure (ServiceModel × ServiceModel) := do
  let edmx ← Metadata.parse text
  let m ← projectService .propertyRef edmx
  let m' ← projectService .firstProperty edmx
  pure (m, m')

theorem modelsOf_ok {text : String} {m m' : ServiceModel} (h : modelsOf text = .ok (m, m')) :
    ∃ edmx, Metadata.parse text = .ok edmx ∧ projectService .propertyRef edmx = .ok m ∧
      projectService .firstProperty edmx = .ok m' := by
  obtain ⟨edmx, hedmx, h⟩ := ok_of_bind h
  obtain ⟨m, hm, h⟩ := ok_of_bind h
  obtain ⟨m', hm', h⟩ := ok_of_bind h
  obtain ⟨rfl, rfl⟩ := Prod.mk.inj (Except.ok.inj h)
  exact ⟨edmx, hedmx, hm, hm'⟩

theorem modelsOf_metadataText {text : String} (h : text.toList = metadataText) :
    modelsOf text = .ok (modelWith none, modelWith (some onlyProperty)) := by
  unfold modelsOf Metadata.parse Xml.Element.parse Xml.parse
  rw [h]
  decide +kernel

/-- The key policies disagree about this metadata. -/
theorem models_online : ∃ edmx,
    metadataOf stored.service.source (replyTo online initialised stored.service.source {})
      = .ok edmx ∧
      projectService .propertyRef edmx = .ok (modelWith none) ∧
      projectService .firstProperty edmx = .ok (modelWith (some onlyProperty)) := by
  have h1 := metadataOf_of_text text_online
  have h2 := modelsOf_ok (modelsOf_metadataText String.toList_ofList)
  obtain ⟨edmx, h3, h4⟩ := h2
  refine ⟨edmx, ?_, h4⟩
  exact h1.trans h3

theorem generate_online :
    ∃ w', (run online (.generate referenced)).run.run initialised = (.ok (), w') := by
  obtain ⟨edmx, hedmx, hmodel, _⟩ := models_online
  have hholds : Holds initialised.files (Config.templateDir {} ".")
      (Text.Dictionary.empty.insert "A.ot" "") :=
    ⟨["A.ot"], by decide +kernel, by decide +kernel, by decide +kernel⟩
  have hex : ∃ files saved,
      initialised.files.write "out.ts" (written stored online.now (modelWith none)) = .ok files ∧
      files.write online.configPath
        (String.ofList (Config.remember {} stored.service.source).write) = .ok saved :=
    exists_of_toBool (by decide +kernel)
  obtain ⟨files, saved, hwrite, hsave⟩ := hex
  have hparent : Path.parent? online.configPath = some ".config/odatatools" := by decide +kernel
  have hseen : initialised.files.exists? ".config/odatatools" = true := by decide +kernel
  have hready := DirReady.seen hparent ((lasts_write hwrite).exists? hseen)
  have haddress : Address.normalize "http://h/svc" = .ok stored.service.source := by decide
  have htemplate : Generator.selectTemplate referenced.template
      (Text.Dictionary.empty.insert "A.ot" "") = .ok ("A.ot", "") := by decide
  have hf : ∃ w', (run online (.generate referenced)).run.run initialised
      = (.ok (), w') ∧ w'.files = saved :=
    generate_run_given (o := referenced) (s := stored) rfl load_initialised rfl haddress rfl rfl
      hholds htemplate rfl
      hedmx hmodel hwrite hready hsave
  obtain ⟨w', hrun, _⟩ := hf
  exact ⟨w', hrun⟩

theorem stored_of_stores {s : FileSettings} (h : Stores referenced s) : s = stored := by
  obtain ⟨⟨source, modularity, request⟩, template⟩ := s
  have haddress : Address.normalize "http://h/svc" = .ok stored.service.source := by decide
  have hsource : stored.service.source = source :=
    Except.ok.inj (haddress.symm.trans (h.address _ rfl))
  obtain rfl : modularity = .modular := h.modularity _ rfl
  obtain rfl : request = {} := h.request
  obtain rfl : template = some "A.ot" := h.template _ rfl
  rw [← hsource]
  rfl

theorem stored_not_marked : ∀ t ∈ stored.strings, ¬ Header.closing <:+: t.toList := by
  decide

theorem models_referenced {edmx : Xml.Element}
    (h : metadataOf stored.service.source
      (replyTo online initialised stored.service.source referenced.request) = .ok edmx) :
    projectService .propertyRef edmx = .ok (modelWith none) ∧
      projectService .firstProperty edmx = .ok (modelWith (some onlyProperty)) := by
  obtain ⟨edmx', hedmx, hmodels⟩ := models_online
  obtain rfl := Except.ok.inj (hedmx.symm.trans h)
  exact hmodels

/-- The update of a file that was generated under another key policy than the configured one. -/
theorem update_again_online :
    ∃ w', (run online (.generate referenced)).run.run initialised = (.ok (), w') ∧
      w'.files.read "out.ts" = .ok (written stored online.now (modelWith none)) ∧
      ∃ v', (run online (.update "out.ts" ".")).run.run { files := w'.files } = (.ok (), v') ∧
        v'.asked = [] ∧ v'.files.read "out.ts"
          = .ok (written stored online.now (modelWith (some onlyProperty))) := by
  obtain ⟨w', hgenerate⟩ := generate_online
  have hlookup : online.configPath = Config.path fun _ => none := rfl
  obtain ⟨s, edmx, model, hstores, hedmx, hmodel, hread, hupdate⟩ :=
    update_again (v := { files := w'.files }) hlookup rfl hgenerate configIn_initialised
      named_initialised apart_initialised clear_initialised rfl rfl fun _ => rfl
  obtain rfl := stored_of_stores hstores
  obtain ⟨hnone, hsome⟩ := models_referenced hedmx
  obtain ⟨v', model', hrun, hasked, hread', _, hmodel', _⟩ := hupdate stored_not_marked
  obtain rfl : model = modelWith none := Except.ok.inj (hmodel.symm.trans hnone)
  obtain rfl : model' = modelWith (some onlyProperty) := Except.ok.inj (hmodel'.symm.trans hsome)
  exact ⟨w', hgenerate, hread, v', hrun, hasked, hread'⟩

/-- A key policy that was given to the generation alone is lost: at the same moment the update
writes another text. -/
theorem update_forgets_policy :
    ∃ w' v' text text', (run online (.generate referenced)).run.run initialised = (.ok (), w') ∧
      (run online (.update "out.ts" ".")).run.run { files := w'.files } = (.ok (), v') ∧
      w'.files.read "out.ts" = .ok text ∧ v'.files.read "out.ts" = .ok text' ∧ text' ≠ text := by
  obtain ⟨w', hgenerate⟩ := generate_online
  have hlookup : online.configPath = Config.path fun _ => none := rfl
  obtain ⟨d, file, w₁, w₂, w₃, hdone, hsame⟩ := generate_done hgenerate configIn_initialised
  obtain ⟨edmx, model', hedmx, hmodel, hmodel', _, hread, hupdate⟩ :=
    hdone.update (v := { files := w'.files }) hlookup rfl named_initialised
      apart_initialised clear_initialised hsame rfl fun _ => rfl
  have hstored := stored_of_stores hdone.stores
  rw [hstored] at hedmx hread hupdate
  obtain ⟨hnone, hsome⟩ := models_referenced hedmx
  obtain ⟨v', hrun, _, hread', _⟩ := hupdate stored_not_marked
  refine ⟨w', v', _, _, hgenerate, hrun, hread, hread', fun hsameText => ?_⟩
  have hmodels := written_inj hsameText
  rw [Except.ok.inj (hmodel.symm.trans hnone), Except.ok.inj (hmodel'.symm.trans hsome)] at hmodels
  exact absurd hmodels (by decide)

end EdmxGen.Command
