import EdmxGen.Proofs.File.Rooted
import EdmxGen.Proofs.Session.Repeat
import EdmxGen.Proofs.Template.Laws

/-!
# The files of a run as a store

The operations that a run has for templates do to what its files hold what they do to a map,
whatever the system refuses (`behaves`). If it refuses nothing, looking is determined by what the
files hold (`constant`), and every operation succeeds where nothing is in the way (`obliging`). The
directory is named by a path that only leads down.
-/

namespace EdmxGen.Session

open FileSystem
open Template (Holdings Behaves Constant Obliging isTemplate)

variable {α : Type} {w w' v : World}

/-! ## Refusals -/

instance : Steady fun w w' => w'.refusals <:+ w.refusals where
  refl _ := List.suffix_rfl
  trans h h' := h'.trans h

theorem spends_nextRefusal : Leads (fun w w' => w'.refusals <:+ w.refusals) nextRefusal :=
  leads_nextRefusal fun _ => List.tail_suffix _

theorem spends_lookUp (f : FileSystem → Except FileErrorKind α) :
    Leads (fun w w' => w'.refusals <:+ w.refusals) (lookUp f) := leads_lookUp spends_nextRefusal f

theorem spends_change (f : FileSystem → Except FileErrorKind FileSystem) :
    Leads (fun w w' => w'.refusals <:+ w.refusals) (change f) :=
  leads_change spends_nextRefusal fun _ _ _ => List.suffix_rfl

/-! ## What files hold -/

def holdings (fs : FileSystem) (h : fs.Rooted) : Holdings where
  text? := fs.textAt?
  isDir p := fs.at? p = some .dir
  home _ _ _ htext := h.home (textAt?_eq_some.1 htext)

/-- The files of a run hold this, a directory lies at a place there, and no more is refused than
this. -/
structure Shows (dir : String) (place : List String) (refused : List (Option Refusal)) (w : World)
    (h : Holdings) : Prop where
  target : w.files.target dir = place
  refusals : w.refusals <:+ refused
  named : w.files.Named
  rooted : w.files.Rooted
  holds : h = holdings w.files rooted

variable {dir : String} {place : List String} {refused : List (Option Refusal)} {h : Holdings}

theorem Shows.of_quiet (hw : Shows dir place refused w h) (hfiles : w'.files = w.files)
    (hrefusals : w'.refusals <:+ w.refusals) : Shows dir place refused w' h where
  target := by rw [hfiles, hw.target]
  refusals := hrefusals.trans hw.refusals
  named := hfiles ▸ hw.named
  rooted := hfiles ▸ hw.rooted
  holds := by
    refine hw.holds.trans ?_
    simp only [hfiles]

theorem Shows.lookUp (hw : Shows dir place refused w h) {f : FileSystem → Except FileErrorKind α}
    {r : Except FileError α} (hrun : (lookUp f).run w = (r, w')) : Shows dir place refused w' h :=
  hw.of_quiet (quiet_lookUp f hrun) (spends_lookUp f hrun)

theorem Shows.refusals_eq (hw : Shows dir place [] w h) : w.refusals = [] :=
  List.suffix_nil.1 hw.refusals

/-- Something lies at a place if a directory or a file does. -/
theorem at?_congr {fs fs' : FileSystem} {hfs : fs.Rooted} {hfs' : fs'.Rooted}
    (hsame : holdings fs' hfs' = holdings fs hfs) (p : List String) : fs'.at? p = fs.at? p := by
  have htext : fs'.textAt? p = fs.textAt? p := congrFun (congrArg Holdings.text? hsame) p
  have hdir : (fs'.at? p = some .dir) = (fs.at? p = some .dir) :=
    congrFun (congrArg Holdings.isDir hsame) p
  cases hat : fs.at? p with
  | none =>
    cases hat' : fs'.at? p with
    | none => rfl
    | some entry =>
      cases entry with
      | dir => rw [hat, hat'] at hdir; simp at hdir
      | file text => rw [textAt?, textAt?, hat, hat'] at htext; cases htext
  | some entry =>
    cases entry with
    | dir => exact hdir.mpr hat
    | file text => exact textAt?_eq_some.1 (htext.trans (textAt?_eq_some.2 hat))

/-! ## What operations do -/

section

variable {fs fs' : FileSystem} (hfs : fs.Rooted)

theorem lists_of_list (hnamed : fs.Named) {names : List String}
    (hlist : fs.list dir = .ok names) : (holdings fs hfs).Lists (fs.target dir) names := by
  obtain ⟨_, hdir, hmem⟩ := list_ok hlist
  refine ⟨hdir, fun name hname => ?_, fun name text htext => (hmem name).2 ?_⟩
  · rw [(list_iff.1 hlist).2.2] at hname
    exact noSlash_of_mem_listed hnamed hname
  · rw [textAt?_eq_some.1 htext]
    simp

theorem made_of_createDirs (hdown : ".." ∉ Path.parts dir) (hmake : fs.createDirs dir = .ok fs') :
    ∃ hfs' : fs'.Rooted, (holdings fs hfs).Made (fs.target dir) (holdings fs' hfs') ∧
      (holdings fs' hfs').isDir (fs.target dir) := by
  have hstart : fs.at? (fs.start dir) = some .dir := by
    unfold FileSystem.start
    split
    · rfl
    · exact hfs.here
  obtain ⟨hfs', hdir⟩ := rooted_makeDirs hfs hstart hmake
  refine ⟨hfs', ⟨(sameFiles_makeDirs hmake).texts, (lasts_makeDirs hmake).dir, fun p hp => ?_⟩,
    hdir⟩
  by_cases hpass : fs.LeadsThrough dir p
  · exact Or.inr (prefix_of_mem_passes hdown hpass)
  · exact Or.inl ((at?_makeDirs_of_not_mem hmake hpass).symm.trans hp)

theorem touched_of_write {name text : String} (hname : Path.IsName name)
    (hwrite : fs.write (Path.join dir name) text = .ok fs') :
    ∃ hfs' : fs'.Rooted,
      (holdings fs hfs).Touched (fs.target dir ++ [name]) (holdings fs' hfs') ∧
        (holdings fs' hfs').text? (fs.target dir ++ [name]) = some text := by
  obtain ⟨_, hself, hother⟩ := textAt?_write hwrite
  rw [target_join _ _ hname] at hself hother
  refine ⟨rooted_write hfs hwrite, ⟨fun p => ⟨fun hp => ?_, (lasts_write hwrite).dir p⟩, hother⟩,
    hself⟩
  obtain ⟨above, last, _, hput⟩ := write_iff.1 hwrite
  have hp : fs'.at? p = some .dir := hp
  rw [hput, at?_put (by simp)] at hp
  split at hp
  · nomatch hp
  · exact hp

end

/-! ## The laws -/

theorem Shows.of_reaches (hw : Shows dir place refused w h) (hreach : Reaches w.files w'.files)
    (hrefusals : w'.refusals <:+ w.refusals) (hrooted : w'.files.Rooted) :
    Shows dir place refused w' (holdings w'.files hrooted) where
  target := by rw [target_congr hreach.lasts.here, hw.target]
  refusals := hrefusals.trans hw.refusals
  named := hreach.named hw.named
  rooted := hrooted
  holds := rfl

/-- The files of a run behave as a map, whatever is refused. -/
theorem behaves (hne : dir ≠ "") (hdown : ".." ∉ Path.parts dir) (place : List String)
    (refused : List (Option Refusal)) :
    Behaves templateStore dir place (Shows dir place refused) where
  list {w w' h r} hw hrun := by
    refine ⟨hw.lookUp (f := fun fs => fs.list dir) hrun, ?_⟩
    obtain ⟨rfl, _, hnamed, hrooted, rfl⟩ := hw
    cases r with
    | ok names =>
      exact lists_of_list hrooted hnamed (lookUp_ok (f := fun fs => fs.list dir) hrun)
    | error e =>
      intro hkind hdir
      rcases of_run_lookUp (f := fun fs => fs.list dir) hrun with ⟨refusal, hr⟩ | hr
      · rw [Except.error.inj hr] at hkind
        cases refusal <;> nomatch hkind
      · rw [hrooted.list hne hdown hdir] at hr
        nomatch hr
  read {w w' h r name} hname hw hrun := by
    refine ⟨hw.lookUp (f := fun fs => fs.read (Path.join dir name)) hrun, ?_⟩
    obtain ⟨rfl, _, _, hrooted, rfl⟩ := hw
    rintro text rfl
    have hread := lookUp_ok (f := fun fs => fs.read (Path.join dir name)) hrun
    have htext := (read_iff.1 hread).2
    rwa [target_join _ _ hname] at htext
  createDirs {w w' h r} hw hrun := by
    have hrefusals := spends_change (fun fs => fs.createDirs dir) hrun
    rcases of_run_change (f := fun fs => fs.createDirs dir) hrun with ⟨hmake, _⟩ | ⟨hfiles, e, rfl⟩
    · obtain ⟨hrooted', hmade, hdir⟩ := made_of_createDirs hw.rooted hdown hmake
      rw [hw.target, ← hw.holds] at hmade
      rw [hw.target] at hdir
      exact ⟨_, hw.of_reaches (Reaches.refl.createDirs hmake) hrefusals hrooted', hmade,
        fun _ => hdir⟩
    · exact ⟨h, hw.of_quiet hfiles hrefusals, .refl place h, fun hr => nomatch hr⟩
  write {w w' h r name text} hname hw hrun := by
    have hrefusals := spends_change (fun fs => fs.write (Path.join dir name) text) hrun
    rcases of_run_change (f := fun fs => fs.write (Path.join dir name) text) hrun with
      ⟨hwrite, _⟩ | ⟨hfiles, e, rfl⟩
    · obtain ⟨hrooted', htouched, htext⟩ := touched_of_write hw.rooted hname hwrite
      rw [hw.target, ← hw.holds] at htouched
      rw [hw.target] at htext
      exact ⟨_, hw.of_reaches (Reaches.refl.write hwrite) hrefusals hrooted', htouched,
        fun _ => htext⟩
    · exact ⟨h, hw.of_quiet hfiles hrefusals, .refl _ h, fun hr => nomatch hr⟩
  announce {w w' h r} hw hrun := by
    obtain ⟨_, rfl⟩ := Prod.mk.inj hrun
    exact hw.of_quiet rfl List.suffix_rfl

/-- Unless something is refused, looking at files depends on what they hold alone. -/
theorem constant (hne : dir ≠ "") (hdown : ".." ∉ Path.parts dir) (place : List String) :
    Constant templateStore dir place (Shows dir place []) where
  toBehaves := behaves hne hdown place []
  list_again {w w' v h names} hw hv hrun := by
    have hrefusals := hv.refusals_eq
    obtain ⟨htarget, _, _, hrooted, rfl⟩ := hw
    obtain ⟨rfl, _, _, hrooted', hsame⟩ := hv
    obtain ⟨_, hdir, hmem⟩ := list_ok (lookUp_ok (f := fun fs => fs.list dir) hrun)
    rw [htarget] at hdir hmem
    rw [at?_congr hsame] at hdir
    have hlist := hrooted'.list hne hdown hdir
    refine ⟨v.files.listed (v.files.target dir), v, ?_, fun name => ?_⟩
    · show (lookUp fun fs => fs.list dir).run v = _
      rw [run_lookUp hrefusals, hlist]
      rfl
    · rw [hmem name, at?_congr hsame]
      exact (list_ok hlist).2.2 name
  read_again {w w' v h name text} hname hw hv hrun := by
    have hrefusals := hv.refusals_eq
    obtain ⟨htarget, _, _, hrooted, rfl⟩ := hw
    obtain ⟨rfl, _, _, hrooted', hsame⟩ := hv
    have hread := lookUp_ok (f := fun fs => fs.read (Path.join dir name)) hrun
    have htext := (read_iff.1 hread).2
    rw [target_join _ _ hname, htarget] at htext
    have htext' : v.files.textAt? (v.files.target dir ++ [name]) = some text :=
      (congrFun (congrArg Holdings.text? hsame) _).symm.trans htext
    exact ⟨text, v, run_readFile hrefusals (hrooted'.read_join hdown hname htext')⟩

/-- The files of a run hold this, and nothing is in the way of templates in the directory. -/
def ShowsClear (dir : String) (place : List String) (refused : List (Option Refusal)) (w : World)
    (h : Holdings) : Prop := Shows dir place refused w h ∧ h.Clear place

/-- What was refused has no effect later. -/
theorem ShowsClear.unrefused (hw : ShowsClear dir place refused w h) :
    ShowsClear dir place [] { w with refusals := [] } h :=
  ⟨⟨hw.1.target, List.suffix_rfl, hw.1.named, hw.1.rooted, hw.1.holds⟩, hw.2⟩

theorem behaves_clear (hne : dir ≠ "") (hdown : ".." ∉ Path.parts dir) (place : List String)
    (refused : List (Option Refusal)) :
    Behaves templateStore dir place (ShowsClear dir place refused) :=
  (behaves hne hdown place refused).clear

/-- Unless something is refused or in the way, templates can be looked at and copied. -/
theorem obliging (hne : dir ≠ "") (hdown : ".." ∉ Path.parts dir) (place : List String) :
    Obliging templateStore dir place (ShowsClear dir place []) where
  toBehaves := behaves_clear hne hdown place []
  lists {w h} hw hdir := by
    have hrefusals := hw.1.refusals_eq
    obtain ⟨rfl, _, _, hrooted, rfl⟩ := hw.1
    refine ⟨w.files.listed (w.files.target dir), w, ?_⟩
    show (lookUp fun fs => fs.list dir).run w = _
    rw [run_lookUp hrefusals, hrooted.list hne hdown hdir]
    rfl
  misses {w h} hw hmissing := by
    have hrefusals := hw.1.refusals_eq
    obtain ⟨⟨rfl, _, _, hrooted, rfl⟩, hclear⟩ := hw
    have hlist := list_missing hne hdown hclear.noFile hmissing
    refine ⟨⟨.notFound, none⟩, w, ?_, rfl⟩
    show (lookUp fun fs => fs.list dir).run w = _
    rw [run_lookUp hrefusals, hlist]
    rfl
  reads {w w' v h names name} hw hrun hmem htemplate hv := by
    have hslash := ((behaves hne hdown place []).list hw.1 hrun).2.noSlash name hmem
    have hname := Template.isName_of_isTemplate htemplate hslash
    have hrefusals := hv.1.refusals_eq
    obtain ⟨⟨htarget, _, _, hrooted, rfl⟩, hclear⟩ := hw
    obtain ⟨⟨rfl, _, _, hrooted', hsame⟩, _⟩ := hv
    -- Something of this name is listed, and it is no directory.
    have hat := ((list_ok (lookUp_ok (f := fun fs => fs.list dir) hrun)).2.2 name).1 hmem
    have hnoDir : w.files.at? (v.files.target dir ++ [name]) ≠ some .dir :=
      hclear.noDir name htemplate
    rw [htarget, at?_congr hsame] at hat
    rw [at?_congr hsame] at hnoDir
    obtain ⟨entry, hentry⟩ := Option.ne_none_iff_exists'.1 hat
    cases entry with
    | dir => exact absurd hentry hnoDir
    | file text =>
      have hread := hrooted'.read_join hdown hname (textAt?_eq_some.2 hentry)
      exact ⟨text, v, run_readFile hrefusals hread⟩
  makes {w h} hw := by
    have hrefusals := hw.1.refusals_eq
    obtain ⟨⟨rfl, _, _, hrooted, rfl⟩, hclear⟩ := hw
    have hmake : ∃ fs', w.files.createDirs dir = .ok fs' :=
      makeDirs_clear fun p hp => hclear.noFile p (prefix_of_mem_passes hdown hp)
    obtain ⟨fs', hmake⟩ := hmake
    exact ⟨_, run_change hrefusals (f := fun fs => fs.createDirs dir) hmake⟩
  writes {w h b} hb hw hdir := by
    have hrefusals := hw.1.refusals_eq
    obtain ⟨⟨rfl, _, _, hrooted, rfl⟩, hclear⟩ := hw
    have hwrites := hrooted.writesAt_join hdown (Template.isName_bundled hb) hdir
      (hclear.noDir b.1 (Template.isTemplate_bundled hb))
    have hwrite : w.files.write (Path.join dir b.1) b.2 = .ok _ :=
      write_iff.2 ⟨_, _, hwrites, rfl⟩
    exact ⟨_, run_change hrefusals (f := fun fs => fs.write (Path.join dir b.1) b.2) hwrite⟩

end EdmxGen.Session
