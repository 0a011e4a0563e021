import EdmxGen.Proofs.Command.Failure
import EdmxGen.Proofs.Config.History
import EdmxGen.Proofs.Session.Stored

/-!
# The history of addresses

A run that generates, updates or lists loads the configuration and, if it succeeds, saves it with
the address of its service in front (`run_ends`). So after any number of runs, of which some succeed
and some fail, the files store the standard configuration with the addresses of the successful runs
(`load_after`).
-/

namespace EdmxGen.Command

open Session FileSystem

variable {env : Environment} {config : Config} {fs fs' : FileSystem} {w w' : World}
  {r : Except Trouble Unit}

/-! ## The addresses of runs -/

/-- The address that was given, or the one that the user names if asked for it first. -/
def addressFrom? (prompter : Prompter) (given : Option String) (recent : List String) :
    Option String :=
  match given with
  | some raw => (Address.normalize raw).toOption
  | none => ((prompter.address recent).run.run []).1.toOption

/-- The address that an update takes from a text: from its header, or from the user if it has none.
-/
def headed? (prompter : Prompter) (config : Config) (text : String) : Option String :=
  match Header.decode text.toList with
  | .ok settings => some settings.service.source
  | .error .noHeader => addressFrom? prompter none config.recentAddresses
  | .error _ => none

/-- The address that a command is to remember: that of the service with which it works. -/
def source? (prompter : Prompter) (config : Config) (fs : FileSystem) : Command → Option String
  | .generate o => addressFrom? prompter o.address config.recentAddresses
  | .update file _ => (fs.read file).toOption.bind (headed? prompter config)
  | .metadata given _ => addressFrom? prompter given config.recentAddresses
  | .entity _ _ _ _ => none
  | .header _ => none
  | .templates _ => none

/-- The configuration after a use of an address, if one was used. -/
def following (config : Config) : Option String → Config
  | some address => config.remember address
  | none => config

/-- One run of a command, with the answers to it, the decoder of pages, and what the system makes of
its operations on files. -/
structure Turn where
  command : Command
  now : Moment
  network : List Http.Sending → Http.Sending → Http.Reply
  prompter : Prompter
  [decoder : Http.PageDecoder]
  refusals : List (Option Refusal) := []

/-- The environment of a run, given the path of the configuration. -/
def Turn.environment (t : Turn) (path : String) : Environment where
  configPath := path
  now := t.now
  network := t.network
  prompter := t.prompter
  decoder := t.decoder

/-- How a run on these files ends. -/
def Turn.result (t : Turn) (path : String) (fs : FileSystem) : Except Trouble Unit × World :=
  (run (t.environment path) t.command).run.run { files := fs, refusals := t.refusals }

/-- The files after a run. -/
def Turn.files (t : Turn) (path : String) (fs : FileSystem) : FileSystem :=
  (t.result path fs).2.files

/-- The address that a run remembers, if it succeeds. -/
def Turn.address? (t : Turn) (path : String) (config : Config) (fs : FileSystem) : Option String :=
  if (t.result path fs).1.toBool then source? t.prompter config fs t.command else none

def filesAfter (path : String) (fs : FileSystem) (turns : List Turn) : FileSystem :=
  turns.foldl (fun fs t => t.files path fs) fs

/-- The addresses of successful runs one after the other. The history so far is what a user is asked
to choose from. -/
def trace (path : String) : Config → FileSystem → List Turn → List String
  | _, _, [] => []
  | config, fs, t :: turns =>
    let address := t.address? path config fs
    address.toList ++ trace path (following config address) (t.files path fs) turns

/-! ## The end of a run -/

/-- A run that was to remember an address ends: the configuration that follows is stored, and
relative paths begin where they did. -/
structure Ends (path : String) (config : Config) (address : Option String) (fs : FileSystem)
    (r : Except Trouble Unit) (fs' : FileSystem) : Prop where
  here : fs'.here = fs.here
  stored : Stored path (following config (if r.toBool then address else none)) fs'

theorem Ends.of_error {path : String} {address : Option String} {t : Trouble}
    (h : Stored path config fs') (hhere : fs'.here = fs.here) :
    Ends path config address fs (.error t) fs' := ⟨hhere, h⟩

theorem Ends.of_none {path : String} (h : Stored path config fs') (hhere : fs'.here = fs.here) :
    Ends path config none fs r fs' := by
  refine ⟨hhere, ?_⟩
  rw [ite_self]
  exact h

/-- A step ends a run if it starts on files that store a configuration, with the working directory
of other files. -/
def Ending (fs₀ : FileSystem) (path : String) (config : Config) (address : Option String)
    (fs : FileSystem) (r : Except Trouble Unit) (fs' : FileSystem) : Prop :=
  fs.here = fs₀.here → Stored path config fs → Ends path config address fs r fs'

theorem ending_error (fs₀ : FileSystem) (path : String) (config : Config)
    (address : Option String) (fs : FileSystem) (t : Trouble) :
    Ending fs₀ path config address fs (.error t) fs := fun _ h => Ends.of_error h rfl

/-- The directory of a file can be made without making anything in its place. -/
def Reachable (path : String) (fs : FileSystem) : Prop :=
  ∀ dir, Path.parent? path = some dir → ¬ fs.LeadsThrough dir (fs.target path)

theorem Reachable.congr {path : String} (h : Reachable path fs) (hhere : fs'.here = fs.here) :
    Reachable path fs' := by
  intro dir hdir
  rw [leadsThrough_congr hhere, target_congr hhere]
  exact h dir hdir

theorem rememberAddress_ends {path : String} (hreach : Reachable path fs) (config : Config)
    (address : String) :
    Leaves (Ending fs path config (some address)) (rememberAddress path config address) := by
  intro w r w' h hhere hstored
  have hsaved := saveConfig_stored hstored (hreach.congr hhere) h
  refine ⟨(saveConfig_files h).1, ?_⟩
  cases r with
  | ok _ => exact hsaved
  | error t => exact hsaved

theorem bundled_ne_config (lookup : String → Option String) (fs : FileSystem) (dir : String)
    {b : String × String} (hb : b ∈ Template.bundled) :
    fs.target (Path.join dir b.1) ≠ fs.target (Config.path lookup) := by
  rw [target_join fs dir (Template.isName_bundled hb)]
  exact (target_configPath_ne lookup fs _ (Template.isTemplate_bundled hb)).symm

/-- The standard template directory of a project leads through the file of the configuration only if
the root of the project does. -/
theorem leadsThrough_templateDir {lookup : String → Option String} {root : String}
    (hsettings : config.settings = {})
    (h : ¬ fs.LeadsThrough root (fs.target (Config.path lookup))) :
    ¬ fs.LeadsThrough (config.templateDir root) (fs.target (Config.path lookup)) := by
  have hdir : config.templateDir root = Path.join root ".vscode/odatatools/templates" := by
    unfold Config.templateDir
    rw [hsettings]
  have hrelative : Path.isAbsolute ".vscode/odatatools/templates" = false := by decide +kernel
  rw [hdir, leadsThrough_join hrelative]
  rintro (hroot | hbelow)
  · exact h hroot
  -- No part of the standard path has the name of the file.
  · obtain ⟨place, hplace⟩ := target_configPath lookup fs
    obtain ⟨part, hpart, hlast⟩ := getLast?_of_mem_passes hbelow
    rw [hplace, List.getLast?_concat] at hlast
    obtain rfl := Option.some.inj hlast
    exact absurd hpart (by decide +kernel)

/-- The paths of a project and of an output do not lead to the file of the configuration. -/
structure Away (path root output : String) (fs : FileSystem) : Prop where
  root : ¬ fs.LeadsThrough root (fs.target path)
  output : fs.target output ≠ fs.target path

theorem Away.congr {path root output : String} (h : Away path root output fs)
    (hhere : fs'.here = fs.here) : Away path root output fs' := by
  refine ⟨?_, ?_⟩
  · rw [leadsThrough_congr hhere, target_congr hhere]
    exact h.root
  · rw [target_congr hhere, target_congr hhere]
    exact h.output

/-- Writing an output and remembering an address ends a run. -/
theorem generateFile_ends {lookup : String → Option String}
    (hpath : env.configPath = Config.path lookup) (hreach : Reachable env.configPath fs)
    (hsettings : config.settings = {}) {root output : String}
    (haway : Away env.configPath root output fs) (settings : FileSettings) (policy : KeyPolicy)
    (address : String) (line : GeneratedFile → List Span) :
    Leaves (Ending fs env.configPath config (some address)) (do
      let file ← generateFile env config settings root output policy
      rememberAddress env.configPath config address
      Attempt.lift (print (line file))) := by
  intro w r w' h hhere hstored
  -- Up to the saving, what is stored stays, whether or not the output was written.
  have haround : Leads (Around fs (fs.target env.configPath))
      (generateFile env config settings root output policy).run := by
    refine around_generateFile env ?_ ?_ haway.output
    · rw [hpath]
      exact leadsThrough_templateDir hsettings (hpath ▸ haway.root)
    · rw [hpath]
      exact fun b hb => bundled_ne_config lookup fs _ hb
  have hplace : w.files.target env.configPath = fs.target env.configPath := target_congr hhere _
  rcases of_run_bind h with ⟨t, hfail, rfl⟩ | ⟨file, w₁, hgo, h⟩
  · have havoids := haround hfail hhere
    exact Ends.of_error (hstored.of_avoids (hplace ▸ havoids)) havoids.lasts.here
  · have havoids := haround hgo hhere
    have hstored₁ := hstored.of_avoids (hplace ▸ havoids)
    have hhere₁ := havoids.lasts.here
    rcases of_run_bind h with ⟨t, hfail, rfl⟩ | ⟨_, w₂, hsave, h⟩
    · obtain ⟨hsaved, hend⟩ :=
        rememberAddress_ends hreach config address hfail (hhere₁.trans hhere) hstored₁
      exact ⟨hsaved.trans hhere₁, hend⟩
    · obtain ⟨hsaved, hend⟩ :=
        rememberAddress_ends hreach config address hsave (hhere₁.trans hhere) hstored₁
      obtain ⟨_, rfl, hprint⟩ := of_run_lift h
      rw [quiet_print _ hprint]
      exact ⟨hsaved.trans hhere₁, hend⟩

/-! ## Choosing an address -/

/-- The step asks nothing. -/
abbrev Unasking {α : Type} (x : Session α) : Prop := Keeps World.asked x

theorem unasking_notify (n : Notice) : Unasking (notify n) := leads_notify (fun _ _ => rfl) n

theorem unasking_nextRefusal : Unasking nextRefusal := leads_nextRefusal fun _ => rfl

theorem unasking_loadConfig (path : String) : Unasking (loadConfig path).run :=
  leads_loadConfig unasking_notify unasking_nextRefusal path

theorem addressFrom?_of_run {given : Option String} {address : String} (hw : w.asked = [])
    (h : (chooseAddress env given config).run.run w = (.ok address, w')) :
    addressFrom? env.prompter given config.recentAddresses = some address := by
  cases given with
  | some raw =>
    unfold addressFrom?
    dsimp only
    rw [chooseAddress_given h]
    rfl
  | none =>
    have hr : ((env.prompter.address config.recentAddresses).run.run w.asked).1 = .ok address :=
      (Prod.mk.inj h).1
    rw [hw] at hr
    unfold addressFrom?
    dsimp only
    rw [hr]
    rfl

theorem headed?_of_run {text : String} {settings : FileSettings} (hw : w.asked = [])
    (h : (settingsFor env config text).run.run w = (.ok settings, w')) :
    headed? env.prompter config text = some settings.service.source := by
  unfold settingsFor at h
  split at h
  · next found hdecode =>
    unfold headed?
    rw [hdecode, ← Except.ok.inj (Prod.mk.inj h).1]
  · next hdecode =>
    obtain ⟨_, w₁, hnotify, h⟩ := of_run_lift_bind h
    obtain ⟨address, w₂, hchoose, h⟩ := ok_of_run_bind h
    obtain ⟨modularity, w₃, _, h⟩ := ok_of_run_bind h
    obtain rfl := Except.ok.inj (Prod.mk.inj h).1
    unfold headed?
    rw [hdecode]
    exact addressFrom?_of_run ((unasking_notify _ hnotify).trans hw) hchoose
  · exact absurd (Prod.mk.inj h).1 (by simp)

/-- A run that finds its address without touching the files goes on to remember it. -/
theorem ends_of_found {α : Type} {path : String} {address : Option String} {x : Attempt α}
    {g : α → String} {f : α → Attempt Unit} (hx : Quiet x.run)
    (hfound : ∀ {a w'}, x.run.run w = (.ok a, w') → address = some (g a))
    (hf : ∀ a, Leaves (Ending fs path config (some (g a))) (f a))
    (hfiles : w.files = fs) (hstored : Stored path config fs)
    (h : (x >>= f).run.run w = (r, w')) : Ends path config address fs r w'.files := by
  rcases of_run_bind h with ⟨t, hfail, rfl⟩ | ⟨a, w₁, hgo, h⟩
  · rw [hx hfail, hfiles]
    exact Ends.of_error hstored rfl
  · have hfiles₁ : w₁.files = fs := (hx hgo).trans hfiles
    rw [hfound hgo, ← hfiles₁]
    exact hf a h (by rw [hfiles₁]) (hfiles₁ ▸ hstored)

/-- A run that chooses its address goes on to remember it. -/
theorem chooseAddress_ends {path : String} {given : Option String} {f : String → Attempt Unit}
    (hf : ∀ address, Leaves (Ending fs path config (some address)) (f address))
    (hw : w.asked = []) (hfiles : w.files = fs) (hstored : Stored path config fs)
    (h : (chooseAddress env given config >>= f).run.run w = (r, w')) :
    Ends path config (addressFrom? env.prompter given config.recentAddresses) fs r w'.files :=
  ends_of_found (quiet_chooseAddress env given config) (addressFrom?_of_run hw) hf hfiles hstored h

/-! ## Each command -/

/-- A run starts, with nothing asked yet, where a configuration with the standard settings is stored
and can be saved again. -/
structure Starts (path : String) (config : Config) (w : World) : Prop where
  stored : Stored path config w.files
  standard : config.settings = {}
  reachable : Reachable path w.files
  asked : w.asked = []

/-- A run that begins by loading the configuration works with the one that is stored, if it may look
for it, and with the standard settings in any case. -/
theorem loadConfig_ends {path : String} {address : Option String} {f : Config → Attempt Unit}
    (hstart : Starts path config w)
    (hf : ∀ {config' : Config} {w₁ : World}, config'.settings = {} →
      (w.refusals.head?.join = none → config' = config) → w₁.files = w.files → w₁.asked = [] →
      (f config').run.run w₁ = (r, w') → Ends path config address w.files r w'.files)
    (h : (loadConfig path >>= f).run.run w = (r, w')) :
    Ends path config address w.files r w'.files := by
  rcases of_run_bind h with ⟨t, hfail, rfl⟩ | ⟨config', w₁, hload, h⟩
  · rw [quiet_loadConfig _ hfail]
    exact Ends.of_error hstart.stored rfl
  · have hfiles := quiet_loadConfig _ hload
    have hasked := (unasking_loadConfig _ hload).trans hstart.asked
    rcases loadConfig_stored hstart.stored hload with rfl | ⟨rfl, hrefused⟩
    · exact hf hstart.standard (fun _ => rfl) hfiles hasked h
    · exact hf rfl (fun hseen => absurd hseen hrefused) hfiles hasked h

theorem listEntityTypes_ends (hstart : Starts env.configPath config w)
    (hseen : w.refusals.head?.join = none) {given : Option String} {o : RequestOptions}
    (h : (listEntityTypes env given o).run.run w = (r, w')) :
    Ends env.configPath config (addressFrom? env.prompter given config.recentAddresses) w.files r
      w'.files := by
  refine loadConfig_ends hstart (fun _ hsame hfiles hasked h => ?_) h
  obtain rfl := (hsame hseen).symm
  refine chooseAddress_ends (fun address => ?_) hasked hfiles hstart.stored h
  exact listing_leaves (ending_error w.files env.configPath config (some address))
    (rememberAddress_ends hstart.reachable config address) o

theorem generateFor_ends {lookup : String → Option String}
    (hpath : env.configPath = Config.path lookup) (hstart : Starts env.configPath config w)
    (hseen : w.refusals.head?.join = none) {o : GenerateOptions}
    (haway : Away env.configPath o.root o.output w.files)
    (h : (generateFor env o).run.run w = (r, w')) :
    Ends env.configPath config (addressFrom? env.prompter o.address config.recentAddresses) w.files
      r w'.files := by
  refine loadConfig_ends hstart (fun _ hsame hfiles hasked h => ?_) h
  obtain rfl := (hsame hseen).symm
  refine chooseAddress_ends (fun address => ?_) hasked hfiles hstart.stored h
  have herror := ending_error w.files env.configPath config (some address)
  refine Leaves.bind (quiet_chooseModularity env o.modularity config) herror fun modularity => ?_
  refine Leaves.bind (Leads.run_lift (quiet_notify _)) herror fun _ => ?_
  exact generateFile_ends hpath hstart.reachable hstart.standard haway _ _ address _

theorem updateFile_ends {lookup : String → Option String}
    (hpath : env.configPath = Config.path lookup) (hstart : Starts env.configPath config w)
    (hseen : w.refusals.head?.join = none) {file root : String}
    (haway : Away env.configPath root file w.files)
    (h : (updateFile env file root).run.run w = (r, w')) :
    Ends env.configPath config ((w.files.read file).toOption.bind (headed? env.prompter config))
      w.files r w'.files := by
  refine loadConfig_ends hstart (fun {_ w₁} _ hsame hfiles hasked h => ?_) h
  obtain rfl := (hsame hseen).symm
  rcases of_run_bind h with ⟨t, hfail, rfl⟩ | ⟨text, w₂, hread, h⟩
  · rw [leads_orFileIn _ (quiet_lookUp fun fs => fs.read file) hfail, hfiles]
    exact Ends.of_error hstart.stored rfl
  have hlook := of_run_orFileIn hread
  have htext : w.files.read file = .ok text := by
    rw [← hfiles]
    exact lookUp_ok (f := fun fs => fs.read file) hlook
  have hfiles₂ : w₂.files = w.files := (quiet_lookUp (fun fs => fs.read file) hlook).trans hfiles
  have hasked₂ : w₂.asked = [] := by
    rw [leads_lookUp unasking_nextRefusal (fun fs => fs.read file) hlook, hasked]
  rw [htext]
  refine ends_of_found (g := fun s => s.service.source) (quiet_settingsFor env config text)
    (headed?_of_run hasked₂) (fun settings => ?_) hfiles₂ hstart.stored h
  have herror := ending_error w.files env.configPath config (some settings.service.source)
  refine Leaves.bind (Leads.run_lift (quiet_notify _)) herror fun _ => ?_
  exact generateFile_ends hpath hstart.reachable hstart.standard haway settings _ _ _

theorem listTemplates_ends {lookup : String → Option String}
    (hpath : env.configPath = Config.path lookup) (hstart : Starts env.configPath config w)
    {root : String} (hroot : ¬ w.files.LeadsThrough root (w.files.target env.configPath))
    (h : (listTemplates env root).run.run w = (r, w')) :
    Ends env.configPath config none w.files r w'.files := by
  refine loadConfig_ends hstart (fun {config' w₁} hstandard _ hfiles _ h => ?_) h
  have hresolve : Leads (Around w.files (w.files.target env.configPath))
      (resolveTemplates (config'.templateDir root)) := by
    rw [hpath] at hroot ⊢
    exact around_resolveTemplates (leadsThrough_templateDir hstandard hroot)
      fun b hb => bundled_ne_config lookup w.files _ hb
  have haround := Leads.run_bind (leads_orFail hresolve) fun templates =>
    leads_showTemplates (fun spans => around_of_quiet (quiet_print spans))
      (config'.templateDir root) templates
  have havoids := haround h (by rw [hfiles])
  rw [hfiles] at havoids
  exact Ends.of_none (hstart.stored.of_avoids havoids) havoids.lasts.here

/-- The paths of a command do not lead to the file of the configuration. -/
def Fits (path : String) (fs : FileSystem) : Command → Prop
  | .generate o => Away path o.root o.output fs
  | .update file root => Away path root file fs
  | .templates root => ¬ fs.LeadsThrough root (fs.target path)
  | .metadata _ _ => True
  | .entity _ _ _ _ => True
  | .header _ => True

/-- The command ends by remembering the address of its service. -/
def Remembers : Command → Prop
  | .generate _ => True
  | .update _ _ => True
  | .metadata _ _ => True
  | .entity _ _ _ _ => False
  | .header _ => False
  | .templates _ => False

/-- A run of a command stores the history with the address it used if it succeeds, and leaves the
history as it is otherwise. -/
theorem run_ends {lookup : String → Option String} (hpath : env.configPath = Config.path lookup)
    (hstart : Starts env.configPath config w) {c : Command}
    (hfits : Fits env.configPath w.files c)
    (hseen : Remembers c → w.refusals.head?.join = none)
    (h : (run env c).run.run w = (r, w')) :
    Ends env.configPath config (source? env.prompter config w.files c) w.files r w'.files := by
  cases c with
  | generate o => exact generateFor_ends hpath hstart (hseen trivial) hfits h
  | update file root => exact updateFile_ends hpath hstart (hseen trivial) hfits h
  | metadata given o => exact listEntityTypes_ends hstart (hseen trivial) h
  | entity name given o policy =>
    rw [quiet_showEntityType env name given o policy h]
    exact Ends.of_none hstart.stored rfl
  | header file =>
    rw [quiet_showHeader file h]
    exact Ends.of_none hstart.stored rfl
  | templates root => exact listTemplates_ends hpath hstart hfits h

/-! ## Runs one after the other -/

theorem Fits.congr {path : String} {c : Command} (h : Fits path fs c) (hhere : fs'.here = fs.here) :
    Fits path fs' c := by
  cases c with
  | generate o => exact Away.congr h hhere
  | update file root => exact Away.congr h hhere
  | templates root =>
    unfold Fits at h ⊢
    dsimp only at h ⊢
    rwa [leadsThrough_congr hhere, target_congr hhere]
  | metadata given o => trivial
  | entity name given o policy => trivial
  | header file => trivial

theorem following_settings (config : Config) (address : Option String) :
    (following config address).settings = config.settings := by
  cases address with
  | some address => rfl
  | none => rfl

theorem foldl_remember_toList (config : Config) (address : Option String) :
    address.toList.foldl Config.remember config = following config address := by
  cases address with
  | some address => rfl
  | none => rfl

/-- After runs one after the other the files store the history that their trace makes. -/
theorem stored_after {lookup : String → Option String} {path : String}
    (hpath : path = Config.path lookup) {turns : List Turn} (hreach : Reachable path fs)
    (hsettings : config.settings = {}) (hstored : Stored path config fs)
    (hturns : ∀ t ∈ turns, Fits path fs t.command ∧
      (Remembers t.command → t.refusals.head?.join = none)) :
    Stored path ((trace path config fs turns).foldl Config.remember config)
      (filesAfter path fs turns) := by
  -- What one run leaves stored is what the next one loads, so the history so far is generalised.
  induction turns generalizing config fs with
  | nil => exact hstored
  | cons t turns ih =>
    obtain ⟨hfits, hseen⟩ := hturns t List.mem_cons_self
    have hends : Ends path config (source? t.prompter config fs t.command) fs
        (t.result path fs).1 (t.files path fs) :=
      have hpath' : (t.environment path).configPath = Config.path lookup := hpath
      run_ends (w := { files := fs, refusals := t.refusals }) hpath'
        ⟨hstored, hsettings, hreach, rfl⟩ hfits hseen rfl
    have hrest := ih (hreach.congr hends.here)
      ((following_settings config (t.address? path config fs)).trans hsettings) hends.stored
      fun t' ht' =>
        have hfits' := hturns t' (List.mem_cons_of_mem _ ht')
        ⟨hfits'.1.congr hends.here, hfits'.2⟩
    rw [trace, List.foldl_append, foldl_remember_toList]
    exact hrest

/-- The stored configuration is the trace of the successful runs. After any runs that start where
nothing lies at the path of the configuration, loading gives the standard settings with the history
that remembers the addresses of the successful runs one after the other. -/
theorem load_after {lookup : String → Option String} {path : String}
    (hpath : path = Config.path lookup) {turns : List Turn}
    (hunset : fs.at? (fs.target path) = none) (hreach : Reachable path fs)
    (hturns : ∀ t ∈ turns, Fits path fs t.command ∧
      (Remembers t.command → t.refusals.head?.join = none)) :
    ((loadConfig path).run.run { files := filesAfter path fs turns }).1
        = .ok ((trace path {} fs turns).foldl Config.remember {}) ∧
      ((trace path {} fs turns).foldl Config.remember {}).settings = {} :=
  ⟨loadConfig_of_stored (stored_after hpath hreach rfl (.unset hunset) hturns) rfl,
    foldl_remember_settings {} _⟩

/-- A service with no entity types. -/
def emptyService : Http.Reply :=
  .response { chunks := [Text.Utf8.encode
    "<edmx:Edmx xmlns:edmx=\"\"><edmx:DataServices/></edmx:Edmx>".toList] }

/-- A listing of a service that gives this reply. -/
def listing (address : String) (reply : Http.Reply) : Turn where
  command := .metadata (some address) {}
  now := ⟨0, 0⟩
  network _ _ := reply
  prompter _ := .none

/-- Without variables the configuration lies under the working directory. -/
def plainPath : String := Config.path fun _ => none

/-- A listing that fails, one that succeeds, and templates shown without a look for the
configuration. -/
def listings : List Turn :=
  [listing "http://g/svc" .refused, listing "https://h/svc" emptyService,
    { listing "" .refused with command := .templates ".", refusals := [some .other] }]

theorem trace_listings : trace plainPath {} {} listings = ["https://h/svc/$metadata"] := by
  decide +kernel

/-- The history holds the address of the listing that succeeded. -/
theorem load_after_listings :
    ((loadConfig plainPath).run.run { files := filesAfter plainPath {} listings }).1
      = .ok { recentAddresses := ["https://h/svc/$metadata"] } := by
  have hreach : Reachable plainPath {} := by
    intro dir hdir
    obtain rfl : ".config/odatatools" = dir := Option.some.inj (hdir ▸ by decide +kernel)
    decide +kernel
  have hturns : ∀ t ∈ listings, Fits plainPath {} t.command ∧
      (Remembers t.command → t.refusals.head?.join = none) := by
    intro t ht
    simp only [listings, List.mem_cons, List.not_mem_nil, or_false] at ht
    rcases ht with rfl | rfl | rfl
    · exact ⟨trivial, fun _ => rfl⟩
    · exact ⟨trivial, fun _ => rfl⟩
    · have hroot : ¬ FileSystem.LeadsThrough {} "." (FileSystem.target {} plainPath) := by
        decide +kernel
      exact ⟨hroot, False.elim⟩
  have hpath : plainPath = Config.path fun _ => none := rfl
  have hload := load_after hpath (by decide +kernel) hreach hturns
  rw [trace_listings] at hload
  exact hload.1

/-! ## Histories that are lost -/

/-- A directory lies where the configuration is looked for. -/
def blocked : FileSystem where
  entries := [(["cfg"], .dir), (["cfg", "config.toml"], .dir),
    (["cfg", "config.toml", "x"], .file "")]

/-- A directory for the configuration that is reached through the place of its file. -/
def windingPath : String := Config.path fun name =>
  if name = Config.dirVariable then some "/cfg/config.toml/.." else none

/-- A listing that succeeds, and another that is refused its look for the configuration. -/
def blindListings : List Turn :=
  [listing "https://g/svc" emptyService,
    { listing "https://h/svc" emptyService with refusals := [some .other] }]

/-- What is loaded is not the trace of the successful runs if a directory lies in the place of the
file, if the path of its directory makes it one, or if a run may not look for it. -/
theorem load_misses_trace :
    (blocked.textAt? (blocked.target "cfg/config.toml") = none ∧
      ((loadConfig "cfg/config.toml").run.run { files := blocked }).1.toBool = false) ∧
    (FileSystem.at? {} (FileSystem.target {} windingPath) = none ∧
      ((loadConfig windingPath).run.run
        { files := filesAfter windingPath {} [listing "https://h/svc" emptyService] }).1.toBool
          = false) ∧
    trace plainPath {} {} blindListings = ["https://g/svc/$metadata", "https://h/svc/$metadata"] ∧
      ((loadConfig plainPath).run.run { files := filesAfter plainPath {} blindListings }).1
        = .ok { recentAddresses := ["https://h/svc/$metadata"] } := by
  decide +kernel

end EdmxGen.Command
