import EdmxGen.Proofs.Session.Store
import EdmxGen.Proofs.Template.Laws
import EdmxGen.Proofs.Text.Dictionary

/-!
# Resolving templates in a store

What resolving templates does in a store that behaves as a map. Each function of the resolution has
one lemma that says what it leaves behind and gives, whether or not it succeeds (`names_ok`,
`readAll_listed`, `of_writeAll`, `of_bootstrap`). Resolving them is put together from these: nothing
that was there is changed (`resolve_spares`).
-/

namespace EdmxGen.Template

open Text (Dictionary Rising)

variable {σ : Type} {store : Store (StateM σ)} {dir : String} {place : List String}
  {Holds : σ → Holdings → Prop} {w w' : σ} {h h' : Holdings}

/-! ## Listing -/

/-- The names of templates are those that the directory lists, or it is missing. -/
theorem names_ok (hstore : Behaves store dir place Holds) (hw : Holds w h) {found : List String}
    (hrun : (names store dir).run.run w = (.ok found, w')) :
    Holds w' h ∧
      ((∃ all, (store.list dir).run w = (.ok all, w') ∧ h.Lists place all ∧
          found = all.filter isTemplate) ∨
        ((∃ e, (store.list dir).run w = (.error e, w') ∧ e.kind = .notFound) ∧
          ¬ h.isDir place ∧ found = [])) := by
  obtain ⟨listed, w₁, hlist, hrun⟩ := of_run_state_bind hrun
  obtain ⟨hw₁, hlaw⟩ := hstore.list hw hlist
  cases listed with
  | ok all =>
    obtain ⟨hfound, rfl⟩ := Prod.mk.inj hrun
    exact ⟨hw₁, Or.inl ⟨all, hlist, hlaw, (Except.ok.inj hfound).symm⟩⟩
  | error e =>
    obtain ⟨hfound, rfl⟩ := Prod.mk.inj hrun
    by_cases hkind : e.kind = .notFound
    · rw [if_pos hkind] at hfound
      exact ⟨hw₁, Or.inr ⟨⟨e, hlist, hkind⟩, hlaw hkind, (Except.ok.inj hfound).symm⟩⟩
    · rw [if_neg hkind] at hfound
      nomatch hfound

theorem names_run {all : List String} (hlist : (store.list dir).run w = (.ok all, w')) :
    (names store dir).run.run w = (.ok (all.filter isTemplate), w') := run_state_bind hlist

theorem names_error {e : FileError} (hlist : (store.list dir).run w = (.error e, w')) :
    (names store dir).run.run w = (if e.kind = .notFound then .ok [] else .error e, w') :=
  run_state_bind hlist

/-! ## Reading -/

/-- The text of a file in a directory, if its name is that of a template. -/
def Holdings.template? (h : Holdings) (place : List String) (name : String) : Option String :=
  if isTemplate name then h.text? (place ++ [name]) else none

/-- A directory holds no template. -/
def Holdings.Bare (h : Holdings) (place : List String) : Prop :=
  ∀ name, h.template? place name = none

theorem readAll_ok (hstore : Behaves store dir place Holds) {found d : Dictionary}
    {names : List String} (hnames : ∀ name ∈ names, Path.IsName name) (hw : Holds w h)
    (hrun : (readAll store dir found names).run.run w = (.ok d, w')) :
    Holds w' h ∧
      (∀ name, d.get? name = if name ∈ names then h.text? (place ++ [name]) else found.get? name) ∧
      ∀ name ∈ names, ∃ u text u', Holds u h ∧
        (store.read (Path.join dir name)).run u = (.ok text, u') := by
  induction names generalizing found w with
  | nil =>
    obtain ⟨hd, rfl⟩ := Prod.mk.inj hrun
    obtain rfl := Except.ok.inj hd
    exact ⟨hw, fun name => by simp, fun name hname => nomatch hname⟩
  | cons name names ih =>
    obtain ⟨text, w₁, hread, hrun⟩ := ok_of_run_bind hrun
    have hfirst : Path.IsName name := hnames name List.mem_cons_self
    obtain ⟨hw₁, htext⟩ := hstore.read hfirst hw hread
    have htext := htext text rfl
    obtain ⟨hw', hget, hreads⟩ := ih (fun n hn => hnames n (List.mem_cons_of_mem _ hn)) hw₁ hrun
    refine ⟨hw', fun n => ?_, fun n hn => ?_⟩
    · rw [hget n, Dictionary.get?_insert]
      by_cases hrest : n ∈ names
      · rw [if_pos hrest, if_pos (List.mem_cons_of_mem _ hrest)]
      · rw [if_neg hrest]
        by_cases heq : n = name
        · rw [if_pos heq, if_pos (heq ▸ List.mem_cons_self), heq, htext]
        · rw [if_neg heq, if_neg (by simp [heq, hrest])]
    · rcases List.mem_cons.1 hn with rfl | hrest
      · exact ⟨w, text, w₁, hw, hread⟩
      · exact hreads n hrest

/-- A file in a directory can be read in every state that holds the same. -/
def Reads (store : Store (StateM σ)) (dir : String) (Holds : σ → Holdings → Prop) (h : Holdings)
    (name : String) : Prop :=
  ∀ u, Holds u h → ∃ text u', (store.read (Path.join dir name)).run u = (.ok text, u')

theorem readAll_run (hstore : Behaves store dir place Holds) {found : Dictionary}
    {names : List String} (hnames : ∀ name ∈ names, Path.IsName name ∧ Reads store dir Holds h name)
    (hw : Holds w h) :
    ∃ d w', (readAll store dir found names).run.run w = (.ok d, w') ∧ Holds w' h := by
  induction names generalizing found w with
  | nil => exact ⟨found, w, rfl, hw⟩
  | cons name names ih =>
    obtain ⟨hname, hreads⟩ := hnames name List.mem_cons_self
    obtain ⟨text, w₁, hread⟩ := hreads w hw
    obtain ⟨d, w', hrest, hw'⟩ := @ih w₁ (found.insert name text)
      (fun n hn => hnames n (List.mem_cons_of_mem _ hn)) (hstore.read hname hw hread).1
    refine ⟨d, w', ?_, hw'⟩
    have hrun : (ExceptT.mk (store.read (Path.join dir name))).run.run w = (.ok text, w₁) := hread
    unfold readAll
    rw [run_bind_ok hrun]
    exact hrest

/-- Reading the templates that a directory lists gives those that it holds. -/
theorem readAll_listed (hstore : Behaves store dir place Holds) {all : List String}
    {found : Dictionary} (hlists : h.Lists place all) (hw : Holds w h)
    (hrun : (readAll store dir .empty (all.filter isTemplate)).run.run w = (.ok found, w')) :
    Holds w' h ∧ (∀ name, found.get? name = h.template? place name) ∧
      ∀ name ∈ all, isTemplate name = true → ∃ u text u', Holds u h ∧
        (store.read (Path.join dir name)).run u = (.ok text, u') := by
  have hnames : ∀ name ∈ all.filter isTemplate, Path.IsName name := by
    intro name hname
    obtain ⟨hmem, htemplate⟩ := List.mem_filter.1 hname
    exact isName_of_isTemplate htemplate (hlists.noSlash name hmem)
  obtain ⟨hw', hget, hreads⟩ := readAll_ok hstore hnames hw hrun
  refine ⟨hw', fun name => ?_, fun name hmem htemplate => ?_⟩
  · rw [hget name, Holdings.template?]
    by_cases htemplate : isTemplate name = true
    · rw [if_pos htemplate]
      split
      · rfl
      · next hnot =>
        cases htext : h.text? (place ++ [name]) with
        | none => rfl
        | some text =>
          exact absurd (List.mem_filter.2 ⟨hlists.files name text htext, htemplate⟩) hnot
    · rw [if_neg htemplate, if_neg fun hmem => htemplate (List.mem_filter.1 hmem).2,
        Dictionary.get?_empty]
  · exact hreads name (List.mem_filter.2 ⟨hmem, htemplate⟩)

/-- Templates that a directory lists and that can be read are all read. -/
theorem readAll_of_reads (hstore : Behaves store dir place Holds) {all : List String}
    (hlists : h.Lists place all)
    (hreads : ∀ name ∈ all, isTemplate name = true → Reads store dir Holds h name)
    (hw : Holds w h) :
    ∃ found w', (readAll store dir .empty (all.filter isTemplate)).run.run w = (.ok found, w') ∧
      Holds w' h ∧ ∀ name, found.get? name = h.template? place name := by
  have hnames : ∀ name ∈ all.filter isTemplate,
      Path.IsName name ∧ Reads store dir Holds h name := by
    intro name hname
    obtain ⟨hmem, htemplate⟩ := List.mem_filter.1 hname
    exact ⟨isName_of_isTemplate htemplate (hlists.noSlash name hmem), hreads name hmem htemplate⟩
  obtain ⟨found, w', hrun, _⟩ := readAll_run hstore hnames hw
  obtain ⟨hw', hget, _⟩ := readAll_listed hstore hlists hw hrun
  exact ⟨found, w', hrun, hw', hget⟩

/-! ## Copying -/

/-- Files were written into a directory, and nothing else has changed. -/
structure Holdings.Written (place : List String) (files : List (String × String))
    (h h' : Holdings) : Prop where
  dirs : ∀ p, h'.isDir p ↔ h.isDir p
  texts : ∀ file ∈ files, h'.text? (place ++ [file.1]) = some file.2
  others : ∀ p, (∀ file ∈ files, p ≠ place ++ [file.1]) → h'.text? p = h.text? p

theorem Holdings.Written.nil (place : List String) (h : Holdings) : h.Written place [] h :=
  ⟨fun _ => Iff.rfl, fun _ hfile => absurd hfile List.not_mem_nil, fun _ _ => rfl⟩

theorem Holdings.Written.cons {h₁ : Holdings} {file : String × String}
    {files : List (String × String)} (htouched : h.Touched (place ++ [file.1]) h₁)
    (htext : h₁.text? (place ++ [file.1]) = some file.2) (hwritten : h₁.Written place files h')
    (hnew : file.1 ∉ files.map Prod.fst) : h.Written place (file :: files) h' := by
  refine ⟨fun p => (hwritten.dirs p).trans (htouched.dirs p), fun f hf => ?_, fun p hp => ?_⟩
  · rcases List.mem_cons.1 hf with rfl | hf
    · rw [hwritten.others, htext]
      intro g hg heq
      have hname : f.1 = g.1 := by simpa using heq
      exact hnew (hname ▸ List.mem_map_of_mem hg)
    · exact hwritten.texts f hf
  · rw [hwritten.others p fun g hg => hp g (List.mem_cons_of_mem _ hg)]
    exact htouched.others p (hp file List.mem_cons_self)

/-- Files are written up to the first one that cannot be. -/
theorem of_writeAll (hstore : Behaves store dir place Holds) {files : List (String × String)}
    (hnames : ∀ file ∈ files, Path.IsName file.1) (hnodup : (files.map Prod.fst).Nodup)
    (hw : Holds w h) {r : Except FileError Unit}
    (hrun : (writeAll store dir files).run.run w = (r, w')) :
    ∃ h', Holds w' h' ∧
      match r with
      | .ok _ => h.Written place files h'
      | .error _ => ∃ before file after h₁, files = before ++ file :: after ∧
          h.Written place before h₁ ∧ h₁.Touched (place ++ [file.1]) h' := by
  induction files generalizing w h with
  | nil =>
    obtain ⟨rfl, rfl⟩ := Prod.mk.inj hrun
    exact ⟨h, hw, .nil place h⟩
  | cons file files ih =>
    have hfirst : Path.IsName file.1 := hnames file List.mem_cons_self
    obtain ⟨hnew, hrest⟩ := List.nodup_cons.1 hnodup
    rcases of_run_bind hrun with ⟨e, hwrite, rfl⟩ | ⟨_, w₁, hwrite, hrun⟩
    · obtain ⟨h', hw', htouched, _⟩ := hstore.write hfirst hw hwrite
      exact ⟨h', hw', [], file, files, h, rfl, .nil place h, htouched⟩
    · obtain ⟨h₁, hw₁, htouched, htext⟩ := hstore.write hfirst hw hwrite
      obtain ⟨h', hw', hlaw⟩ :=
        ih (fun f hf => hnames f (List.mem_cons_of_mem _ hf)) hrest hw₁ hrun
      refine ⟨h', hw', ?_⟩
      cases r with
      | ok _ => exact .cons htouched (htext rfl) hlaw hnew
      | error e =>
        obtain ⟨before, failed, after, h₂, rfl, hwritten, hlast⟩ := hlaw
        refine ⟨file :: before, failed, after, h₂, rfl,
          .cons htouched (htext rfl) hwritten ?_, hlast⟩
        intro hmem
        exact hnew (by rw [List.map_append]; exact List.mem_append_left _ hmem)

theorem nodup_bundled : (bundled.map Prod.fst).Nodup := by decide

/-- The bundled templates are copied into a directory that is made first. -/
theorem of_bootstrap (hstore : Behaves store dir place Holds) (hw : Holds w h)
    {r : Except FileError Unit} (hrun : (bootstrap store dir).run.run w = (r, w')) :
    ∃ h', Holds w' h' ∧
      match r with
      | .ok _ => ∃ h₁, h.Made place h₁ ∧ h₁.isDir place ∧ h₁.Written place bundled h'
      | .error _ => h.Made place h' ∨ ∃ before file after h₁ h₂, bundled = before ++ file :: after ∧
          h.Made place h₁ ∧ h₁.Written place before h₂ ∧ h₂.Touched (place ++ [file.1]) h' := by
  obtain ⟨_, w₁, hannounce, hrun⟩ := of_run_lift_bind hrun
  have hw₁ := hstore.announce hw hannounce
  rcases of_run_bind hrun with ⟨e, hmake, rfl⟩ | ⟨_, w₂, hmake, hrun⟩
  · obtain ⟨h', hw', hmade, _⟩ := hstore.createDirs hw₁ hmake
    exact ⟨h', hw', Or.inl hmade⟩
  · obtain ⟨h₁, hw₂, hmade, hdir⟩ := hstore.createDirs hw₁ hmake
    obtain ⟨h', hw', hlaw⟩ :=
      of_writeAll hstore (fun _ => isName_bundled) nodup_bundled hw₂ hrun
    refine ⟨h', hw', ?_⟩
    cases r with
    | ok _ => exact ⟨h₁, hmade, hdir rfl, hlaw⟩
    | error e =>
      obtain ⟨before, file, after, h₂, hsplit, hwritten, hlast⟩ := hlaw
      exact Or.inr ⟨before, file, after, h₁, h₂, hsplit, hmade, hwritten, hlast⟩

/-! ## Resolving -/

theorem bare_of_names (hstore : Behaves store dir place Holds) (hw : Holds w h)
    (hrun : (names store dir).run.run w = (.ok [], w')) : h.Bare place := by
  intro name
  unfold Holdings.template?
  split
  · next htemplate =>
    cases htext : h.text? (place ++ [name]) with
    | none => rfl
    | some text =>
      rcases (names_ok hstore hw hrun).2 with ⟨all, _, hlists, hnone⟩ | ⟨_, hmissing, _⟩
      · have hmem := List.mem_filter.2 ⟨hlists.files name text htext, htemplate⟩
        rw [← hnone] at hmem
        nomatch hmem
      · exact absurd (h.home place name text htext) hmissing
  · rfl

/-- Only a directory, with those that lead to it, and the bundled templates in it have been
added. -/
structure Holdings.Bootstrapped (place : List String) (h h' : Holdings) : Prop where
  kept : ∀ p, h.isDir p → h'.isDir p
  made : ∀ p, h'.isDir p → h.isDir p ∨ p <+: place
  isDir : h'.isDir place
  new : ∀ b ∈ bundled, h.text? (place ++ [b.1]) = none
  copied : ∀ b ∈ bundled, h'.text? (place ++ [b.1]) = some b.2
  others : ∀ p, (∀ b ∈ bundled, p ≠ place ++ [b.1]) → h'.text? p = h.text? p

theorem Holdings.Bare.bootstrapped (hbare : h.Bare place) {h₁ : Holdings}
    (hmade : h.Made place h₁) (hdir : h₁.isDir place) (hwritten : h₁.Written place bundled h') :
    h.Bootstrapped place h' where
  kept p hp := (hwritten.dirs p).2 (hmade.kept p hp)
  made p hp := hmade.made p ((hwritten.dirs p).1 hp)
  isDir := (hwritten.dirs place).2 hdir
  new b hb := by
    have hnone := hbare b.1
    rwa [Holdings.template?, if_pos (isTemplate_bundled hb)] at hnone
  copied := hwritten.texts
  others p hp := (hwritten.others p hp).trans (hmade.texts p)

/-- A directory has been listed and the templates in it have been read. -/
def Seen (store : Store (StateM σ)) (dir : String) (Holds : σ → Holdings → Prop) (h : Holdings)
    (all : List String) : Prop :=
  (∃ u u', Holds u h ∧ (store.list dir).run u = (.ok all, u')) ∧
    ∀ name ∈ all, isTemplate name = true → ∃ u text u', Holds u h ∧
      (store.read (Path.join dir name)).run u = (.ok text, u')

/-- Templates that were resolved are those that the directory holds then. It held some before and
nothing has changed, or it held none and has been given the bundled ones. -/
theorem resolve_ok (hstore : Behaves store dir place Holds) (hw : Holds w h) {found : Dictionary}
    (hrun : (resolve store dir).run.run w = (.ok found, w')) :
    ∃ h', Holds w' h' ∧ (∀ name, found.get? name = h'.template? place name) ∧
      (∃ all, h'.Lists place all ∧ all.filter isTemplate ≠ [] ∧ Seen store dir Holds h' all) ∧
      ∃ first w₁, (names store dir).run.run w = (.ok first, w₁) ∧
        (first ≠ [] ∧ h' = h ∨ first = [] ∧ h.Bootstrapped place h') := by
  obtain ⟨first, w₁, hnames, hrun⟩ := ok_of_run_bind hrun
  obtain ⟨hw₁, hcases⟩ := names_ok hstore hw hnames
  by_cases hempty : first.isEmpty
  · rw [if_pos hempty] at hrun
    obtain rfl : first = [] := List.isEmpty_iff.1 hempty
    have hbare := bare_of_names hstore hw hnames
    obtain ⟨_, w₂, hboot, hrun⟩ := ok_of_run_bind hrun
    obtain ⟨copied, w₃, hagain, hrun⟩ := ok_of_run_bind hrun
    obtain ⟨h', hw₂, h₁, hmade, hdir, hwritten⟩ := of_bootstrap hstore hw₁ hboot
    have hbootstrapped := hbare.bootstrapped hmade hdir hwritten
    obtain ⟨hw₃, hlisted⟩ := names_ok hstore hw₂ hagain
    rcases hlisted with ⟨all, hlist, hlists, rfl⟩ | ⟨_, hmissing, _⟩
    · obtain ⟨hw', hget, hreads⟩ := readAll_listed hstore hlists hw₃ hrun
      refine ⟨h', hw', hget, ⟨all, hlists, ?_, ⟨w₂, w₃, hw₂, hlist⟩, hreads⟩, [], w₁, hnames,
        Or.inr ⟨rfl, hbootstrapped⟩⟩
      have hfirst : ("Interfaces.ot", interfaces) ∈ bundled := List.mem_cons_self
      have hmem := hlists.files _ _ (hbootstrapped.copied _ hfirst)
      exact List.ne_nil_of_mem (List.mem_filter.2 ⟨hmem, isTemplate_bundled hfirst⟩)
    · exact absurd hbootstrapped.isDir hmissing
  · rw [if_neg hempty] at hrun
    have hsome : first ≠ [] := by simpa [List.isEmpty_iff] using hempty
    rcases hcases with ⟨all, hlist, hlists, rfl⟩ | ⟨_, _, hnil⟩
    · obtain ⟨hw', hget, hreads⟩ := readAll_listed hstore hlists hw₁ hrun
      exact ⟨h, hw', hget, ⟨all, hlists, hsome, ⟨w, w₁, hw, hlist⟩, hreads⟩, _, w₁, hnames,
        Or.inl ⟨hsome, rfl⟩⟩
    · exact absurd hnil hsome

/-- Templates that are listed and can be read are resolved without any change. -/
theorem resolve_listed (hstore : Behaves store dir place Holds) (hw : Holds w h)
    {all : List String} {w₁ : σ} (hlist : (store.list dir).run w = (.ok all, w₁))
    (hsome : all.filter isTemplate ≠ [])
    (hreads : ∀ name ∈ all, isTemplate name = true → Reads store dir Holds h name) :
    ∃ found w', (resolve store dir).run.run w = (.ok found, w') ∧ Holds w' h ∧
      ∀ name, found.get? name = h.template? place name := by
  obtain ⟨hw₁, hlists⟩ := hstore.list hw hlist
  obtain ⟨found, w', hrun, hw', hget⟩ := readAll_of_reads hstore hlists hreads hw₁
  refine ⟨found, w', ?_, hw', hget⟩
  unfold resolve
  rw [run_bind_ok (names_run hlist), if_neg (by simpa [List.isEmpty_iff] using hsome)]
  exact hrun

/-- What was resolved is resolved again without any change. -/
theorem resolve_again (hstore : Constant store dir place Holds) {all : List String}
    {found : Dictionary} (hget : ∀ name, found.get? name = h.template? place name)
    (hlists : h.Lists place all) (hsome : all.filter isTemplate ≠ [])
    (hseen : Seen store dir Holds h all) (hw : Holds w h) :
    ∃ w', (resolve store dir).run.run w = (.ok found, w') ∧ Holds w' h := by
  obtain ⟨⟨u, u', hu, hlist⟩, hread⟩ := hseen
  obtain ⟨all', w₁, hlist', hsame⟩ := hstore.list_again hu hw hlist
  have hsome' : all'.filter isTemplate ≠ [] := by
    obtain ⟨name, hname⟩ := List.exists_mem_of_ne_nil _ hsome
    obtain ⟨hmem, htemplate⟩ := List.mem_filter.1 hname
    exact List.ne_nil_of_mem (List.mem_filter.2 ⟨(hsame name).2 hmem, htemplate⟩)
  have hreads : ∀ name ∈ all', isTemplate name = true → Reads store dir Holds h name := by
    intro name hmem htemplate v hv
    have hmem' := (hsame name).1 hmem
    obtain ⟨v₀, text, v₁, hv₀, hrun⟩ := hread name hmem' htemplate
    exact hstore.read_again (isName_of_isTemplate htemplate (hlists.noSlash name hmem')) hv₀ hv hrun
  obtain ⟨found', w', hrun, hw', hget'⟩ := resolve_listed hstore.toBehaves hw hlist' hsome' hreads
  obtain rfl : found' = found := Dictionary.ext_get? fun name => (hget' name).trans (hget name).symm
  exact ⟨w', hrun, hw'⟩

/-- A listing tells a template. -/
def Offers (listed : Except FileError (List String)) : Prop :=
  ∃ all, listed = .ok all ∧ ∃ name ∈ all, IsTemplateName name

theorem Holdings.Lists.offers_iff {all : List String} (hlists : h.Lists place all) :
    Offers (.ok all) ↔ all.filter isTemplate ≠ [] := by
  constructor
  · rintro ⟨_, hall, name, hmem, hname⟩
    obtain rfl := Except.ok.inj hall
    have htemplate := (isTemplate_iff (hlists.noSlash name hmem)).2 hname
    exact List.ne_nil_of_mem (List.mem_filter.2 ⟨hmem, htemplate⟩)
  · intro hsome
    obtain ⟨name, hname⟩ := List.exists_mem_of_ne_nil _ hsome
    obtain ⟨hmem, htemplate⟩ := List.mem_filter.1 hname
    exact ⟨all, rfl, name, hmem, (isTemplate_iff (hlists.noSlash name hmem)).1 htemplate⟩

theorem names_eq_nil_iff (hstore : Behaves store dir place Holds) (hw : Holds w h)
    {listed : Except FileError (List String)} {w₁ w₂ : σ} {found : List String}
    (hlist : (store.list dir).run w = (listed, w₁))
    (hnames : (names store dir).run.run w = (.ok found, w₂)) : found = [] ↔ ¬ Offers listed := by
  obtain ⟨hw₁, hlaw⟩ := hstore.list hw hlist
  cases listed with
  | ok all =>
    rw [names_run hlist] at hnames
    obtain rfl := Except.ok.inj (Prod.mk.inj hnames).1
    rw [Holdings.Lists.offers_iff hlaw, not_not]
  | error e =>
    rw [names_error hlist] at hnames
    have hnone : ¬ Offers (.error e) := fun ⟨_, hall, _⟩ => nomatch hall
    by_cases hkind : e.kind = .notFound
    · rw [if_pos hkind] at hnames
      exact ⟨fun _ => hnone, fun _ => (Except.ok.inj (Prod.mk.inj hnames).1).symm⟩
    · rw [if_neg hkind] at hnames
      nomatch (Prod.mk.inj hnames).1

/-- The templates in a directory are these files. -/
def Holdings.Keeps (h : Holdings) (place : List String) (files : List (String × String)) : Prop :=
  ∀ name text, h.template? place name = some text ↔ (name, text) ∈ files

theorem Holdings.Bare.keeps (hbare : h.Bare place) {files : List (String × String)}
    (htemplates : ∀ file ∈ files, isTemplate file.1 = true)
    (htexts : ∀ file ∈ files, h'.text? (place ++ [file.1]) = some file.2)
    (hothers : ∀ p, (∀ file ∈ files, p ≠ place ++ [file.1]) → h'.text? p = h.text? p) :
    h'.Keeps place files := by
  intro name text
  constructor
  · intro hfound
    by_cases hnew : ∃ file ∈ files, file.1 = name
    · obtain ⟨file, hfile, rfl⟩ := hnew
      rw [Holdings.template?, if_pos (htemplates file hfile), htexts file hfile] at hfound
      rwa [← Option.some.inj hfound]
    · have hsame : h'.text? (place ++ [name]) = h.text? (place ++ [name]) := by
        refine hothers _ fun file hfile heq => hnew ⟨file, hfile, ?_⟩
        simpa using heq.symm
      have hnone := hbare name
      rw [Holdings.template?, hsame] at hfound
      rw [Holdings.template?, hfound] at hnone
      nomatch hnone
  · intro hfile
    rw [Holdings.template?, if_pos (htemplates _ hfile)]
    exact htexts _ hfile

theorem Holdings.Keeps.eq_ofList {files : List (String × String)} (hkeeps : h.Keeps place files)
    (hrising : Rising files) {found : Dictionary}
    (hget : ∀ name, found.get? name = h.template? place name) : found = .ofList files := by
  refine Dictionary.ext_get? fun name => Option.ext fun text => ?_
  rw [hget name, hkeeps name text, Dictionary.get?_eq_some_iff, Dictionary.entries_ofList hrising]

theorem rising_bundled : Rising bundled := by decide +kernel

/-- Resolving templates changes nothing that was there. They are those of the directory, which is
given the bundled ones only if it lists none, and they are resolved again without any change. A
directory that cannot be listed, other than a missing one, is left alone. -/
theorem resolve_spares (hstore : Constant store dir place Holds) (hw : Holds w h)
    {listed : Except FileError (List String)} {w₁ : σ}
    (hlist : (store.list dir).run w = (listed, w₁)) :
    (∀ found w', (resolve store dir).run.run w = (.ok found, w') → ∃ h', Holds w' h' ∧
      (∃ names w₂, (store.list dir).run w' = (.ok names, w₂) ∧
        ∀ name, (found.get? name).isSome ↔ name ∈ names ∧ IsTemplateName name) ∧
      (∀ name text, found.get? name = some text → h'.text? (place ++ [name]) = some text) ∧
      (Offers listed → h' = h) ∧
      (¬ Offers listed → h.Bootstrapped place h' ∧ found = .ofList bundled) ∧
      ∀ v, Holds v h' → ∃ v', (resolve store dir).run.run v = (.ok found, v') ∧ Holds v' h') ∧
    ∀ e, listed = .error e → e.kind ≠ .notFound →
      (resolve store dir).run.run w = (.error e, w₁) ∧ Holds w₁ h := by
  constructor
  · intro found w' hrun
    obtain ⟨h', hw', hget, ⟨all, hlists, hsome, hseen⟩, first, w₂, hnames, hchange⟩ :=
      resolve_ok hstore.toBehaves hw hrun
    have htexts : ∀ name text, found.get? name = some text →
        isTemplate name = true ∧ h'.text? (place ++ [name]) = some text := by
      intro name text hname
      rw [hget name, Holdings.template?] at hname
      by_cases htemplate : isTemplate name = true
      · exact ⟨htemplate, by rwa [if_pos htemplate] at hname⟩
      · rw [if_neg htemplate] at hname
        nomatch hname
    refine ⟨h', hw', ?_, fun name text hname => (htexts name text hname).2, ?_, ?_, ?_⟩
    · obtain ⟨⟨u, u', hu, hall⟩, hreads⟩ := hseen
      obtain ⟨names, w₃, hnames', hsame⟩ := hstore.list_again hu hw' hall
      refine ⟨names, w₃, hnames', fun name => ?_⟩
      rw [hsame name]
      constructor
      · intro hname
        obtain ⟨text, hname⟩ := Option.isSome_iff_exists.1 hname
        obtain ⟨htemplate, htext⟩ := htexts name text hname
        have hmem := hlists.files name text htext
        exact ⟨hmem, (isTemplate_iff (hlists.noSlash name hmem)).1 htemplate⟩
      · rintro ⟨hmem, hname⟩
        have hslash := hlists.noSlash name hmem
        have htemplate := (isTemplate_iff hslash).2 hname
        obtain ⟨v, text, v', hv, hread⟩ := hreads name hmem htemplate
        have htext :=
          (hstore.read (isName_of_isTemplate htemplate hslash) hv hread).2 text rfl
        rw [hget name, Holdings.template?, if_pos htemplate, htext]
        rfl
    · intro hoffers
      rcases hchange with ⟨_, hsame⟩ | ⟨rfl, _⟩
      · exact hsame
      · exact absurd hoffers ((names_eq_nil_iff hstore.toBehaves hw hlist hnames).1 rfl)
    · intro hnone
      rcases hchange with ⟨hfirst, _⟩ | ⟨rfl, hbootstrapped⟩
      · exact absurd ((names_eq_nil_iff hstore.toBehaves hw hlist hnames).2 hnone) hfirst
      · have hbare := bare_of_names hstore.toBehaves hw hnames
        have hkeeps := hbare.keeps (fun _ => isTemplate_bundled) hbootstrapped.copied
          hbootstrapped.others
        exact ⟨hbootstrapped, hkeeps.eq_ofList rising_bundled hget⟩
    · exact fun v hv => resolve_again hstore hget hlists hsome hseen hv
  · rintro e rfl hkind
    refine ⟨?_, (hstore.list hw hlist).1⟩
    unfold resolve
    have hfails := names_error hlist
    rw [if_neg hkind] at hfails
    rw [run_bind, hfails]

/-- A project whose template directory holds no template, but other files. -/
def unfilled : World where
  files :=
    { entries := [(["p"], .dir), (["p", "t"], .dir), (["p", "t", "notes.txt"], .file "mine"),
        (["p", "t", ".ot"], .file "hidden")]
      here := ["p"] }

/-- The bundled templates are put beside the other files of a directory. -/
theorem resolve_spares_unfilled :
    ∃ w', (resolve Session.templateStore "t").run.run unfilled = (.ok (.ofList bundled), w') ∧
      w'.files.textAt? ["p", "t", "ProxyClass.ot"] = some proxyClass ∧
      w'.files.textAt? ["p", "t", ".ot"] = some "hidden" ∧
      ((resolve Session.templateStore "t").run.run w').1 = .ok (.ofList bundled) := by
  have hrooted : unfilled.files.Rooted := by decide +kernel
  have hw : Session.Shows "t" ["p", "t"] [] unfilled (Session.holdings unfilled.files hrooted) :=
    ⟨by decide +kernel, List.suffix_rfl, by decide +kernel, hrooted, rfl⟩
  have hstore : Constant Session.templateStore "t" ["p", "t"] (Session.Shows "t" ["p", "t"] []) :=
    Session.constant (by decide) (by decide +kernel) ["p", "t"]
  have hlist : ((Session.templateStore.list "t").run unfilled).1 = .ok ["notes.txt", ".ot"] := by
    decide +kernel
  obtain ⟨_, hlists⟩ := hstore.list hw (Prod.ext hlist rfl)
  have hnone : ¬ Offers (.ok ["notes.txt", ".ot"]) := by
    rw [hlists.offers_iff, not_not]
    decide +kernel
  have hsucceeds : ((resolve Session.templateStore "t").run.run unfilled).1.toBool = true := by
    decide +kernel
  rcases hrun : (resolve Session.templateStore "t").run.run unfilled with ⟨r, w'⟩
  rw [hrun] at hsucceeds
  cases r with
  | error e => nomatch hsucceeds
  | ok found =>
    obtain ⟨h', hw', _, _, _, hfilled, hagain⟩ :=
      (resolve_spares hstore hw (Prod.ext hlist rfl)).1 found w' hrun
    obtain ⟨hbootstrapped, rfl⟩ := hfilled hnone
    obtain ⟨v, hv, _⟩ := hagain w' hw'
    have htexts : h'.text? = w'.files.textAt? := by rw [hw'.holds]; rfl
    refine ⟨w', rfl, ?_, ?_, by rw [hv]⟩
    · rw [← htexts]
      exact hbootstrapped.copied ("ProxyClass.ot", proxyClass) (by simp [bundled])
    · have hold : unfilled.files.textAt? ["p", "t", ".ot"] = some "hidden" := by decide +kernel
      rw [← htexts, hbootstrapped.others _ (by decide +kernel)]
      exact hold

end EdmxGen.Template
