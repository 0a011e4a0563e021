import EdmxGen.Proofs.Run
import EdmxGen.Proofs.Template.Name

/-!
# Stores that behave as maps

A store behaves as a map from places to texts, some of the places being directories, if its
operations do to what it holds what they do to such a map. Only the operations in one directory are
looked at, as templates are not resolved elsewhere. An operation may fail for any reason: what can
be said then is that it has touched nothing but what it was to change (`Behaves`). A store is
constant if looking gives the same as long as it holds the same, and obliging if every operation
succeeds.
-/

namespace EdmxGen.Template

/-! ## What a store holds -/

/-- The texts of files by place, and the places that are directories. A file lies in a directory. -/
structure Holdings where
  text? : List String → Option String
  isDir : List String → Prop
  home : ∀ place name text, text? (place ++ [name]) = some text → isDir place

namespace Holdings

/-- A directory and those that lead to it were made, or some of them. -/
structure Made (place : List String) (h h' : Holdings) : Prop where
  texts : ∀ p, h'.text? p = h.text? p
  kept : ∀ p, h.isDir p → h'.isDir p
  made : ∀ p, h'.isDir p → h.isDir p ∨ p <+: place

theorem Made.refl (place : List String) (h : Holdings) : h.Made place h :=
  ⟨fun _ => rfl, fun _ hp => hp, fun _ hp => Or.inl hp⟩

/-- At most the file at a place differs. -/
structure Touched (place : List String) (h h' : Holdings) : Prop where
  dirs : ∀ p, h'.isDir p ↔ h.isDir p
  others : ∀ p, p ≠ place → h'.text? p = h.text? p

theorem Touched.refl (place : List String) (h : Holdings) : h.Touched place h :=
  ⟨fun _ => Iff.rfl, fun _ _ => rfl⟩

/-- These are the names in a directory: those of all its files, and perhaps others. -/
structure Lists (h : Holdings) (place names : List String) : Prop where
  isDir : h.isDir place
  noSlash : ∀ name ∈ names, '/' ∉ name.toList
  files : ∀ name text, h.text? (place ++ [name]) = some text → name ∈ names

/-- Nothing is in the way of templates in a directory: no file where a directory is to be, and no
directory where a template is to be. -/
structure Clear (h : Holdings) (place : List String) : Prop where
  noFile : ∀ p, p <+: place → h.text? p = none
  noDir : ∀ name, isTemplate name = true → ¬ h.isDir (place ++ [name])

theorem not_append_prefix (place : List String) (name : String) : ¬ place ++ [name] <+: place := by
  intro hprefix
  have hlen := hprefix.length_le
  rw [List.length_append, List.length_singleton] at hlen
  omega

theorem Clear.made {h h' : Holdings} {place : List String} (hclear : h.Clear place)
    (hmade : h.Made place h') : h'.Clear place where
  noFile p hp := (hmade.texts p).trans (hclear.noFile p hp)
  noDir name hname hdir := by
    rcases hmade.made _ hdir with hdir | hprefix
    · exact hclear.noDir name hname hdir
    · exact not_append_prefix place name hprefix

theorem Clear.touched {h h' : Holdings} {place : List String} {name : String}
    (hclear : h.Clear place) (htouched : h.Touched (place ++ [name]) h') : h'.Clear place where
  noFile p hp := by
    rw [htouched.others p, hclear.noFile p hp]
    rintro rfl
    exact not_append_prefix place name hp
  noDir name' hname hdir := hclear.noDir name' hname ((htouched.dirs _).1 hdir)

end Holdings

/-! ## Laws of stores -/

variable {σ : Type}

/-- The operations of a store on a directory and on the files in it do to what its states hold what
they do to a map. The directory lies at a place. -/
structure Behaves (store : Store (StateM σ)) (dir : String) (place : List String)
    (Holds : σ → Holdings → Prop) : Prop where
  /-- Only a missing directory is not found. -/
  list : ∀ {w w' h r}, Holds w h → (store.list dir).run w = (r, w') → Holds w' h ∧
    match r with
    | .ok names => h.Lists place names
    | .error e => e.kind = .notFound → ¬ h.isDir place
  read : ∀ {w w' h r name}, Path.IsName name → Holds w h →
    (store.read (Path.join dir name)).run w = (r, w') → Holds w' h ∧
      ∀ text, r = .ok text → h.text? (place ++ [name]) = some text
  createDirs : ∀ {w w' h r}, Holds w h → (store.createDirs dir).run w = (r, w') →
    ∃ h', Holds w' h' ∧ h.Made place h' ∧ (r = .ok () → h'.isDir place)
  /-- A file that could not be written may hold anything. -/
  write : ∀ {w w' h r name text}, Path.IsName name → Holds w h →
    (store.write (Path.join dir name) text).run w = (r, w') →
    ∃ h', Holds w' h' ∧ h.Touched (place ++ [name]) h' ∧
      (r = .ok () → h'.text? (place ++ [name]) = some text)
  announce : ∀ {w w' h r}, Holds w h → (store.announce dir).run w = (r, w') → Holds w' h

/-- The way of templates stays clear. -/
theorem Behaves.clear {store : Store (StateM σ)} {dir : String} {place : List String}
    {Holds : σ → Holdings → Prop} (hstore : Behaves store dir place Holds) :
    Behaves store dir place fun w h => Holds w h ∧ h.Clear place where
  list hw hrun := by
    obtain ⟨hw', hlaw⟩ := hstore.list hw.1 hrun
    exact ⟨⟨hw', hw.2⟩, hlaw⟩
  read hname hw hrun := by
    obtain ⟨hw', hlaw⟩ := hstore.read hname hw.1 hrun
    exact ⟨⟨hw', hw.2⟩, hlaw⟩
  createDirs hw hrun := by
    obtain ⟨h', hw', hmade, hdir⟩ := hstore.createDirs hw.1 hrun
    exact ⟨h', ⟨hw', hw.2.made hmade⟩, hmade, hdir⟩
  write hname hw hrun := by
    obtain ⟨h', hw', htouched, htext⟩ := hstore.write hname hw.1 hrun
    exact ⟨h', ⟨hw', hw.2.touched htouched⟩, htouched, htext⟩
  announce hw hrun := ⟨hstore.announce hw.1 hrun, hw.2⟩

/-- Looking at a directory succeeds again, and gives the same names, while the store holds the
same. -/
structure Constant (store : Store (StateM σ)) (dir : String) (place : List String)
    (Holds : σ → Holdings → Prop) : Prop extends Behaves store dir place Holds where
  list_again : ∀ {w w' v h names}, Holds w h → Holds v h →
    (store.list dir).run w = (.ok names, w') →
    ∃ names' v', (store.list dir).run v = (.ok names', v') ∧ ∀ name, name ∈ names' ↔ name ∈ names
  read_again : ∀ {w w' v h name text}, Path.IsName name → Holds w h → Holds v h →
    (store.read (Path.join dir name)).run w = (.ok text, w') →
    ∃ text' v', (store.read (Path.join dir name)).run v = (.ok text', v')

/-- Every operation on a directory succeeds: it is listed unless it is missing, every template that
is listed can be read, and the bundled templates can be copied. -/
structure Obliging (store : Store (StateM σ)) (dir : String) (place : List String)
    (Holds : σ → Holdings → Prop) : Prop extends Behaves store dir place Holds where
  lists : ∀ {w h}, Holds w h → h.isDir place →
    ∃ names w', (store.list dir).run w = (.ok names, w')
  misses : ∀ {w h}, Holds w h → ¬ h.isDir place →
    ∃ e w', (store.list dir).run w = (.error e, w') ∧ e.kind = .notFound
  reads : ∀ {w w' v h names name}, Holds w h → (store.list dir).run w = (.ok names, w') →
    name ∈ names → isTemplate name = true → Holds v h →
    ∃ text v', (store.read (Path.join dir name)).run v = (.ok text, v')
  makes : ∀ {w h}, Holds w h → ∃ w', (store.createDirs dir).run w = (.ok (), w')
  writes : ∀ {w h b}, b ∈ bundled → Holds w h → h.isDir place →
    ∃ w', (store.write (Path.join dir b.1) b.2).run w = (.ok (), w')

end EdmxGen.Template
