import EdmxGen.Proofs.Template.Resolve

/-!
# Templates that were not all copied

The bundled templates are copied one after the other, and how far that came is seen only in the
directory. If it failed before the first of them was there it is done again. Otherwise the directory
has templates, so it keeps those that were copied (`resolve_interrupted`).
-/

namespace EdmxGen.Template

open Text (Dictionary Rising)

variable {σ : Type} {store : Store (StateM σ)} {dir : String} {place : List String}
  {Holds : σ → Holdings → Prop} {w w' : σ} {h h' : Holdings}

/-! ## What is left behind -/

/-- These bundled templates are left where not all could be copied: those before the one that could
not be written, and perhaps what was written of that one. -/
def Leftover (left : List (String × String)) : Prop :=
  ∃ before b after, bundled = before ++ b :: after ∧
    (left = before ∨ ∃ text, left = before ++ [(b.1, text)])

theorem leftover_nil : Leftover [] := ⟨[], _, _, rfl, Or.inl rfl⟩

/-- The names of what is left are the first ones of the bundled templates. -/
theorem Leftover.names_prefix {left : List (String × String)} (h : Leftover left) :
    left.map Prod.fst <+: bundled.map Prod.fst := by
  obtain ⟨before, b, after, hsplit, rfl | ⟨text, rfl⟩⟩ := h
  · exact ⟨(b :: after).map Prod.fst, by rw [hsplit, List.map_append]⟩
  · exact ⟨after.map Prod.fst, by simp [hsplit]⟩

theorem Leftover.isTemplate {left : List (String × String)} (h : Leftover left)
    {file : String × String} (hfile : file ∈ left) : isTemplate file.1 = true := by
  obtain ⟨b, hb, hname⟩ := List.mem_map.1 (h.names_prefix.subset (List.mem_map_of_mem hfile))
  rw [← hname]
  exact isTemplate_bundled hb

theorem Leftover.rising {left : List (String × String)} (h : Leftover left) : Rising left := by
  have hnames : (bundled.map Prod.fst).Pairwise (· < ·) := List.pairwise_map.2 rising_bundled
  exact List.pairwise_map.1 (hnames.sublist h.names_prefix.sublist)

/-- Of the template that could not be written there may be a file, and nothing else is new beside
those before it. -/
theorem Holdings.Bare.leftover (hbare : h.Bare place) {h₁ : Holdings}
    {before after : List (String × String)} {b : String × String}
    (hsplit : bundled = before ++ b :: after) (hwritten : h.Written place before h₁)
    (hlast : h₁.Touched (place ++ [b.1]) h') : ∃ left, Leftover left ∧ h'.Keeps place left := by
  have hb : b ∈ bundled := by
    rw [hsplit]
    exact List.mem_append_right _ List.mem_cons_self
  have hothers : ∀ p, (∀ file ∈ before, p ≠ place ++ [file.1]) → p ≠ place ++ [b.1] →
      h'.text? p = h.text? p :=
    fun p hp hne => (hlast.others p hne).trans (hwritten.others p hp)
  have htexts : ∀ file ∈ before, h'.text? (place ++ [file.1]) = some file.2 := by
    intro file hfile
    rw [hlast.others, hwritten.texts file hfile]
    intro heq
    -- The template that could not be written is none of those before it.
    have hnodup := nodup_bundled
    rw [hsplit, List.map_append, List.map_cons] at hnodup
    have hname : file.1 = b.1 := by simpa using heq
    exact (List.nodup_append.1 hnodup).2.2 _ (List.mem_map_of_mem hfile) _ List.mem_cons_self hname
  cases htorn : h'.text? (place ++ [b.1]) with
  | none =>
    have hleft : Leftover before := ⟨before, b, after, hsplit, Or.inl rfl⟩
    refine ⟨before, hleft, hbare.keeps (fun _ => hleft.isTemplate) htexts fun p hp => ?_⟩
    by_cases hne : p = place ++ [b.1]
    · have hnone := hbare b.1
      rw [Holdings.template?, if_pos (isTemplate_bundled hb)] at hnone
      rw [hne, htorn, hnone]
    · exact hothers p hp hne
  | some text =>
    have hleft : Leftover (before ++ [(b.1, text)]) :=
      ⟨before, b, after, hsplit, Or.inr ⟨text, rfl⟩⟩
    refine ⟨_, hleft, hbare.keeps (fun _ => hleft.isTemplate) ?_ fun p hp => ?_⟩
    · intro file hfile
      rcases List.mem_append.1 hfile with hfile | hfile
      · exact htexts file hfile
      · rw [List.mem_singleton.1 hfile, htorn]
    · refine hothers p (fun file hfile => hp file (List.mem_append_left _ hfile)) ?_
      exact hp (b.1, text) (List.mem_append_right _ (List.mem_singleton_self _))

theorem Holdings.Bare.made (hbare : h.Bare place) (hmade : h.Made place h') : h'.Bare place := by
  intro name
  rw [Holdings.template?, hmade.texts]
  exact hbare name

/-- A directory that had no template keeps what is left of the bundled ones. -/
theorem keeps_of_bootstrap (hstore : Behaves store dir place Holds) (hw : Holds w h)
    (hbare : h.Bare place) {e : FileError}
    (hrun : (bootstrap store dir).run.run w = (.error e, w')) :
    ∃ left h', Leftover left ∧ Holds w' h' ∧ h'.Keeps place left := by
  obtain ⟨h', hw', hlaw⟩ := of_bootstrap hstore hw hrun
  rcases hlaw with hmade | ⟨before, b, after, h₁, h₂, hsplit, hmade, hwritten, hlast⟩
  · refine ⟨[], h', leftover_nil, hw', fun name text => ?_⟩
    rw [hbare.made hmade name]
    simp
  · obtain ⟨left, hleft, hkeeps⟩ := (hbare.made hmade).leftover hsplit hwritten hlast
    exact ⟨left, h', hleft, hw', hkeeps⟩

/-! ## Resolving where nothing fails -/

theorem Holdings.Keeps.text {files : List (String × String)} (hkeeps : h.Keeps place files)
    {file : String × String} (hfile : file ∈ files) :
    isTemplate file.1 = true ∧ h.text? (place ++ [file.1]) = some file.2 := by
  have htext := (hkeeps file.1 file.2).2 hfile
  rw [Holdings.template?] at htext
  by_cases htemplate : isTemplate file.1 = true
  · exact ⟨htemplate, by rwa [if_pos htemplate] at htext⟩
  · rw [if_neg htemplate] at htext
    cases htext

/-- A directory that holds a template is listed with one, and its templates can be read. -/
theorem Obliging.resolve (hstore : Obliging store dir place Holds) (hw : Holds w h)
    {name text : String} (htemplate : isTemplate name = true)
    (htext : h.text? (place ++ [name]) = some text) :
    ∃ found w', (resolve store dir).run.run w = (.ok found, w') ∧ Holds w' h ∧
      ∀ name, found.get? name = h.template? place name := by
  obtain ⟨all, w₁, hlist⟩ := hstore.lists hw (h.home place name text htext)
  have hmem := (hstore.list hw hlist).2.files name text htext
  refine resolve_listed hstore.toBehaves hw hlist ?_ fun n hn hname u hu => ?_
  · exact List.ne_nil_of_mem (List.mem_filter.2 ⟨hmem, htemplate⟩)
  · exact hstore.reads hw hlist hn hname hu

theorem Obliging.writeAll (hstore : Obliging store dir place Holds)
    {files : List (String × String)} (hfiles : ∀ file ∈ files, file ∈ bundled) (hw : Holds w h)
    (hdir : h.isDir place) :
    ∃ w' h', (writeAll store dir files).run.run w = (.ok (), w') ∧ Holds w' h' ∧
      h'.isDir place := by
  induction files generalizing w h with
  | nil => exact ⟨w, h, rfl, hw, hdir⟩
  | cons file files ih =>
    have hfirst : file ∈ bundled := hfiles file List.mem_cons_self
    obtain ⟨w₁, hwrite⟩ := hstore.writes hfirst hw hdir
    obtain ⟨h₁, hw₁, htouched, _⟩ := hstore.write (isName_bundled hfirst) hw hwrite
    obtain ⟨w', h', hrest, hw', hdir'⟩ :=
      ih (fun f hf => hfiles f (List.mem_cons_of_mem _ hf)) hw₁ ((htouched.dirs place).2 hdir)
    have hrun : (ExceptT.mk (store.write (Path.join dir file.1) file.2)).run.run w = (.ok (), w₁) :=
      hwrite
    refine ⟨w', h', ?_, hw', hdir'⟩
    unfold Template.writeAll
    rw [run_bind_ok hrun]
    exact hrest

theorem Obliging.bootstrap (hstore : Obliging store dir place Holds) (hw : Holds w h) :
    ∃ w' h', (bootstrap store dir).run.run w = (.ok (), w') ∧ Holds w' h' ∧ h'.isDir place := by
  have hw₁ : Holds ((store.announce dir).run w).2 h := hstore.announce hw rfl
  have hannounce : (ExceptT.lift (store.announce dir) : ExceptT FileError _ _).run.run w
      = (.ok (), ((store.announce dir).run w).2) := rfl
  obtain ⟨w₂, hmake⟩ := hstore.makes hw₁
  obtain ⟨h₁, hw₂, _, hdir⟩ := hstore.createDirs hw₁ hmake
  obtain ⟨w', h', hrest, hw', hdir'⟩ := hstore.writeAll (fun _ hb => hb) hw₂ (hdir rfl)
  have hrun : (ExceptT.mk (store.createDirs dir)).run.run ((store.announce dir).run w).2
      = (.ok (), w₂) := hmake
  refine ⟨w', h', ?_, hw', hdir'⟩
  unfold Template.bootstrap
  rw [run_bind_ok hannounce, run_bind_ok hrun]
  exact hrest

/-- A directory that holds no template, or is missing, lists none. -/
theorem Obliging.names_of_bare (hstore : Obliging store dir place Holds) (hw : Holds w h)
    (hbare : h.Bare place) : ∃ w', (names store dir).run.run w = (.ok [], w') := by
  by_cases hdir : h.isDir place
  · obtain ⟨all, w₁, hlist⟩ := hstore.lists hw hdir
    have hnone : all.filter Template.isTemplate = [] := by
      refine List.filter_eq_nil_iff.2 fun name hmem htemplate => ?_
      obtain ⟨text, v, hread⟩ := hstore.reads hw hlist hmem htemplate hw
      have hslash := (hstore.list hw hlist).2.noSlash name hmem
      have htext := (hstore.read (isName_of_isTemplate htemplate hslash) hw hread).2 text rfl
      have hempty := hbare name
      rw [Holdings.template?, if_pos htemplate, htext] at hempty
      cases hempty
    exact ⟨w₁, hnone ▸ names_run hlist⟩
  · obtain ⟨e, w₁, hlist, hkind⟩ := hstore.misses hw hdir
    exact ⟨w₁, by rw [names_error hlist, if_pos hkind]⟩

/-- A directory that holds no template is given the bundled ones. -/
theorem Obliging.resolve_bare (hstore : Obliging store dir place Holds) (hw : Holds w h)
    (hbare : h.Bare place) :
    ∃ w' h', (Template.resolve store dir).run.run w = (.ok (.ofList bundled), w') ∧
      Holds w' h' := by
  obtain ⟨w₁, hnames⟩ := hstore.names_of_bare hw hbare
  have hw₁ := (names_ok hstore.toBehaves hw hnames).1
  obtain ⟨w₂, h₂, hboot, hw₂, hdir⟩ := hstore.bootstrap hw₁
  obtain ⟨all, w₃, hlist⟩ := hstore.lists hw₂ hdir
  obtain ⟨hw₃, hlists⟩ := hstore.list hw₂ hlist
  obtain ⟨found, w', hread, _⟩ := readAll_of_reads hstore.toBehaves hlists
    (fun _ hmem htemplate _ hu => hstore.reads hw₂ hlist hmem htemplate hu) hw₃
  have hrun : (Template.resolve store dir).run.run w = (.ok found, w') := by
    unfold Template.resolve
    rw [run_bind_ok hnames, if_pos List.isEmpty_nil, run_bind_ok hboot,
      run_bind_ok (names_run hlist)]
    exact hread
  obtain ⟨h', hw', hget, _, first, _, hfirst, hchange⟩ := resolve_ok hstore.toBehaves hw hrun
  rw [hnames] at hfirst
  obtain rfl := Except.ok.inj (Prod.mk.inj hfirst).1
  obtain ⟨_, hbootstrapped⟩ := hchange.resolve_left fun hsome => hsome.1 rfl
  have hkeeps := hbare.keeps (fun _ => isTemplate_bundled) hbootstrapped.copied
    hbootstrapped.others
  obtain rfl := hkeeps.eq_ofList rising_bundled hget
  exact ⟨w', h', hrun, hw'⟩

/-! ## Resolving again -/

theorem Holdings.template?_congr
    (hsame : ∀ name, h'.text? (place ++ [name]) = h.text? (place ++ [name])) (name : String) :
    h'.template? place name = h.template? place name := by
  unfold Holdings.template?
  rw [hsame name]

/-- If the bundled templates cannot all be copied into a directory without templates, resolving them
fails so, and what is left there is what resolving finds later if nothing fails: the bundled
templates if nothing was left, otherwise the templates that were left and no others. -/
theorem resolve_interrupted (hstore : Behaves store dir place Holds) (hw : Holds w h) {w₁ : σ}
    (hnames : (names store dir).run.run w = (.ok [], w₁)) {e : FileError}
    (hboot : (bootstrap store dir).run.run w₁ = (.error e, w')) :
    (resolve store dir).run.run w = (.error e, w') ∧
    ∃ left h', Leftover left ∧ Holds w' h' ∧ h'.Keeps place left ∧
      ∀ {τ : Type} {later : Store (StateM τ)} {Holds' : τ → Holdings → Prop} {v : τ} {k : Holdings},
        Obliging later dir place Holds' → Holds' v k →
        (∀ name, k.text? (place ++ [name]) = h'.text? (place ++ [name])) →
        ∃ v' k', (resolve later dir).run.run v
            = (.ok (.ofList (if left = [] then bundled else left)), v') ∧
          Holds' v' k' ∧ (left ≠ [] → k' = k) := by
  have hbare := bare_of_names hstore hw hnames
  have hw₁ := (names_ok hstore hw hnames).1
  obtain ⟨left, h', hleft, hw', hkeeps⟩ := keeps_of_bootstrap hstore hw₁ hbare hboot
  refine ⟨?_, left, h', hleft, hw', hkeeps, ?_⟩
  · unfold resolve
    rw [run_bind_ok hnames, if_pos List.isEmpty_nil, run_bind, hboot]
  intro τ later Holds' v k hlater hv hsame
  have hkeeps : k.Keeps place left := by
    intro name text
    rw [Holdings.template?_congr hsame]
    exact hkeeps name text
  by_cases hnil : left = []
  · subst hnil
    have hbare : k.Bare place := by
      intro name
      refine Option.eq_none_iff_forall_ne_some.2 fun text htext => ?_
      exact absurd ((hkeeps name text).1 htext) List.not_mem_nil
    obtain ⟨v', k', hrun, hv'⟩ := hlater.resolve_bare hv hbare
    exact ⟨v', k', by rwa [if_pos rfl], hv', fun hsome => absurd rfl hsome⟩
  · obtain ⟨file, hfile⟩ := List.exists_mem_of_ne_nil _ hnil
    obtain ⟨htemplate, htext⟩ := hkeeps.text hfile
    obtain ⟨found, v', hrun, hv', hget⟩ := hlater.resolve hv htemplate htext
    obtain rfl := hkeeps.eq_ofList hleft.rising hget
    exact ⟨v', k, by rwa [if_neg hnil], hv', fun _ => rfl⟩

/-- A project without a template directory, where the second bundled template cannot be written. -/
def stopped : World where
  files := { entries := [(["p"], .dir)], here := ["p"] }
  refusals := [none, none, none, some .other]

theorem shows_stopped :
    ∃ h, Session.ShowsClear "t" ["p", "t"] stopped.refusals stopped h := by
  have hrooted : stopped.files.Rooted := by decide +kernel
  refine ⟨Session.holdings stopped.files hrooted,
    ⟨by decide +kernel, List.suffix_rfl, by decide +kernel, hrooted, rfl⟩, fun p hp => ?_,
    fun name _ => ?_⟩
  · have hnone : ∀ p ∈ ["p", "t"].inits, stopped.files.textAt? p = none := by decide +kernel
    exact hnone p ((List.mem_inits p ["p", "t"]).2 hp)
  · show stopped.files.at? (["p", "t"] ++ [name]) ≠ some .dir
    simp [FileSystem.at?, stopped]

/-- The project after its directory has been looked at. -/
def looked : World := ((names Session.templateStore "t").run.run stopped).2

theorem names_stopped : (names Session.templateStore "t").run.run stopped = (.ok [], looked) := by
  have hnames : ((names Session.templateStore "t").run.run stopped).1 = .ok [] := by decide +kernel
  exact Prod.ext hnames rfl

/-- The project after the templates could not all be copied. -/
def halted : World := ((bootstrap Session.templateStore "t").run.run looked).2

theorem bootstrap_looked : (bootstrap Session.templateStore "t").run.run looked
    = (.error ⟨.other, none⟩, halted) := by
  have hboot : ((bootstrap Session.templateStore "t").run.run looked).1
      = .error ⟨.other, none⟩ := by decide +kernel
  exact Prod.ext hboot rfl

theorem behaves_stopped : Behaves Session.templateStore "t" ["p", "t"]
    (Session.ShowsClear "t" ["p", "t"] stopped.refusals) :=
  Session.behaves_clear (by decide) (by decide +kernel) ["p", "t"] stopped.refusals

theorem obliging_halted : Obliging Session.templateStore "t" ["p", "t"]
    (Session.ShowsClear "t" ["p", "t"] []) :=
  Session.obliging (by decide) (by decide +kernel) ["p", "t"]

/-- The second template could not be written, so the first one alone is found later. -/
theorem resolve_interrupted_stopped :
    (resolve Session.templateStore "t").run.run stopped = (.error ⟨.other, none⟩, halted) ∧
      ∃ left, Leftover left ∧ ("Interfaces.ot", interfaces) ∈ left ∧
        (∀ text, ("ProxyClass.ot", text) ∉ left) ∧
        ((resolve Session.templateStore "t").run.run { halted with refusals := [] }).1
          = .ok (.ofList left) := by
  obtain ⟨h, hw⟩ := shows_stopped
  obtain ⟨hfails, left, h', hleft, hw', hkeeps, hlater⟩ :=
    resolve_interrupted behaves_stopped hw names_stopped bootstrap_looked
  obtain ⟨v', k', hrun, _⟩ := hlater obliging_halted hw'.unrefused fun _ => rfl
  have htexts : h'.text? = halted.files.textAt? := by rw [hw'.1.holds]; rfl
  have hfirst : ("Interfaces.ot", interfaces) ∈ left := by
    have htext : halted.files.textAt? ["p", "t", "Interfaces.ot"] = some interfaces := by
      decide +kernel
    rw [← hkeeps, Holdings.template?, if_pos (by decide +kernel), htexts]
    exact htext
  refine ⟨hfails, left, hleft, hfirst, fun text hsecond => ?_, ?_⟩
  · have hnone : halted.files.textAt? ["p", "t", "ProxyClass.ot"] = none := by decide +kernel
    have htext := (hkeeps.text hsecond).2
    rw [htexts] at htext
    exact absurd (hnone.symm.trans htext) (by simp)
  · rw [hrun, if_neg (List.ne_nil_of_mem hfirst)]

/-- Bundled templates can be missing later, though nothing fails then and nothing has changed. -/
theorem resolve_misses_bundled :
    ¬ ∀ {σ τ : Type} {store : Store (StateM σ)} {later : Store (StateM τ)} {dir : String}
      {place : List String} {Holds : σ → Holdings → Prop} {Holds' : τ → Holdings → Prop}
      {w w₁ w' : σ} {v : τ} {h h' k : Holdings} {e : FileError},
      Behaves store dir place Holds → Holds w h →
      (names store dir).run.run w = (.ok [], w₁) →
      (bootstrap store dir).run.run w₁ = (.error e, w') → Holds w' h' →
      Obliging later dir place Holds' → Holds' v k →
      (∀ name, k.text? (place ++ [name]) = h'.text? (place ++ [name])) →
      ∃ found v', (resolve later dir).run.run v = (.ok found, v') ∧
        ∀ b ∈ bundled, (found.get? b.1).isSome := by
  intro hclaim
  obtain ⟨h, hw⟩ := shows_stopped
  have hlooked := (names_ok behaves_stopped hw names_stopped).1
  obtain ⟨h', hhalted, _⟩ := of_bootstrap behaves_stopped hlooked bootstrap_looked
  obtain ⟨found, v', hrun, hall⟩ := hclaim behaves_stopped hw names_stopped bootstrap_looked
    hhalted obliging_halted hhalted.unrefused fun _ => rfl
  have hmissing : ((resolve Session.templateStore "t").run.run
      { halted with refusals := [] }).1.toOption.bind (·.get? "ProxyClass.ot") = none := by
    decide +kernel
  rw [hrun] at hmissing
  have hsome := hall ("ProxyClass.ot", proxyClass) (by simp [bundled])
  rw [Option.isSome_iff_ne_none] at hsome
  exact hsome hmissing

end EdmxGen.Template
