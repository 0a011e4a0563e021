import EdmxGen.Proofs.Generator
import EdmxGen.Proofs.Moment
import EdmxGen.Proofs.Text.Order

/-!
# Files generated again

The settings of a generated file name the template that was picked, the one asked for or the least
by its bytes (`picks_of_selectTemplate`). So these settings generate the same file again, whatever
templates were added, but for the line of its creation (`generate_pinned`). A template that is
missing is told before the metadata is asked for (`generate_of_not_selected`).
-/

namespace EdmxGen

/-- The texts are the same but for what the first line with this label shows. -/
def SameBut (label text text' : List Char) : Prop :=
  ∃ above shown shown' below,
    text = above ++ '\n' :: label ++ shown ++ '\n' :: below ∧
    text' = above ++ '\n' :: label ++ shown' ++ '\n' :: below ∧
    ¬ label <:+: above ∧ '\n' ∉ shown ∧ '\n' ∉ shown'

/-! ## The line of creation -/

namespace Header

/-- How the line of creation begins. -/
def creationLabel : List Char := "Creation Time: ".toList

theorem creationLabel_chars : creationLabel = ['C', 'r', 'e', 'a', 't', 'i', 'o', 'n', ' ', 'T', 'i',
    'm', 'e', ':', ' '] := String.toList_ofList

/-- The label behind two texts, the second of which ends a line. -/
theorem toList_lines {as bs : List Char} (h : bs = bs.dropLast ++ ['\n']) :
    (String.ofList as ++ String.ofList bs ++ "Creation Time: ").toList =
      as ++ bs.dropLast ++ '\n' :: creationLabel := by
  calc (String.ofList as ++ String.ofList bs ++ "Creation Time: ").toList
      = as ++ bs ++ creationLabel := by
        rw [String.toList_append, String.toList_append, String.toList_ofList, String.toList_ofList]
        rfl
    _ = as ++ (bs.dropLast ++ ['\n']) ++ creationLabel := by rw [← h]
    _ = as ++ bs.dropLast ++ '\n' :: creationLabel := by simp

/-- The banner ends with the label, which does not stand anywhere before. -/
theorem exists_notice : ∃ notice, banner = notice ++ '\n' :: creationLabel ∧
    ¬ creationLabel <:+: '/' :: rule ++ notice := by
  refine ⟨_, toList_lines (by decide), ?_⟩
  rw [creationLabel_chars]
  decide +kernel

theorem exists_warning : ∃ cs, warning = '\n' :: cs := ⟨_, String.toList_ofList⟩

/-- Headers of the same settings differ in the line of creation only, whatever follows them. -/
theorem sameBut_encode (settings : Json) (created created' : Moment) (body : List Char) :
    SameBut creationLabel (encode settings created ++ body) (encode settings created' ++ body) := by
  obtain ⟨notice, hbanner, habove⟩ := exists_notice
  obtain ⟨cs, hwarning⟩ := exists_warning
  have hencode : ∀ moment : Moment, encode settings moment ++ body =
      '/' :: rule ++ notice ++ '\n' :: creationLabel ++ moment.write ++ '\n' :: (cs ++ opening ++
        block settings ++ closing ++ '\n' :: rule ++ ['/', '\n', '\n'] ++ body) := by
    intro moment
    unfold encode
    rw [hbanner, hwarning]
    simp only [List.append_assoc, List.cons_append]
  have hclock : ∀ moment : Moment, '\n' ∉ moment.write := Moment.not_mem_write (by decide)
  exact ⟨_, _, _, _, hencode created, hencode created', habove, hclock _, hclock _⟩

end Header

namespace Generator

open Text

variable {requested : Option String} {templates templates' : Dictionary}
  {template : String × String}

/-! ## Templates -/

/-- The name is the one to take from the templates: the one that is requested or, if none is, the
one whose bytes come first. -/
structure Picks (requested : Option String) (templates : Dictionary) (name : String) : Prop where
  held : ∃ text, templates.get? name = some text
  asked : ∀ key ∈ requested, name = key
  least : requested = none →
    ∀ e ∈ templates.entries, Utf8.encode name.toList ≤ Utf8.encode e.1.toList

/-- The templates have nothing to take: not the name that is requested or, if none is, no name. -/
def Lacks (requested : Option String) (templates : Dictionary) : Prop :=
  (∃ name, requested = some name ∧ templates.get? name = none) ∨
    requested = none ∧ templates.entries = []

/-- The first entry has the least key. -/
theorem le_of_head? (h : templates.entries.head? = some template) {e : String × String}
    (he : e ∈ templates.entries) : template.1 ≤ e.1 := by
  obtain ⟨rest, hrest⟩ := List.head?_eq_some_iff.1 h
  have hrising := templates.rising
  rw [hrest] at he hrising
  rcases List.mem_cons.1 he with rfl | he
  · exact String.le_refl _
  · exact String.not_lt.1 (String.lt_asymm ((List.pairwise_cons.1 hrising).1 e he))

theorem picks_of_selectTemplate (h : selectTemplate requested templates = .ok template) :
    Picks requested templates template.1 := by
  refine ⟨⟨_, get?_of_selectTemplate h⟩, ?_, ?_⟩
  · rintro key rfl
    exact (selectTemplate_some_iff.1 h).1
  · rintro rfl e he
    exact Utf8.encode_le_encode_iff.2 (le_of_head? (selectTemplate_none_iff.1 h) he)

/-- A template that was selected is selected by its name from any templates that hold the same. -/
theorem selectTemplate_added (h : selectTemplate requested templates = .ok template)
    (hadded : ∀ key text, templates.get? key = some text → templates'.get? key = some text) :
    selectTemplate (some template.1) templates' = .ok template :=
  selectTemplate_some_iff.2 ⟨rfl, hadded _ _ (get?_of_selectTemplate h)⟩

theorem selectTemplate_of_lacks (h : Lacks requested templates) :
    selectTemplate requested templates =
      .error (.templateNotFound (requested.getD ("*." ++ Template.fileExtension))) := by
  unfold selectTemplate
  rcases h with ⟨name, rfl, hnone⟩ | ⟨rfl, hnil⟩
  · dsimp only
    rw [hnone]
    rfl
  · dsimp only
    rw [hnil]
    rfl

/-! ## Generation -/

/-- Without a template a run is over before it has any effect. -/
theorem generate_of_not_selected {m : Type → Type} [Monad m] [LawfulMonad m] (source : Source m)
    (render : Renderer) (policy : KeyPolicy) {settings : FileSettings} {f : Failure}
    (h : selectTemplate settings.template templates = .error f) :
    (generate source render policy settings templates).run = pure (.error f) := by
  unfold generate
  rw [h]
  exact pure_bind _ _

/-- The settings of a generated file name the template to take, and they generate the file again
from the same metadata, whatever templates were added: the same but for the line of its creation. If
there is no template to take, this is told before anything is asked for. -/
theorem generate_pinned {σ : Type} (source : Source (StateM σ)) (policy : KeyPolicy)
    (settings : FileSettings) (templates : Dictionary) (w : σ) :
    (∀ file w', (generate source dumpModel policy settings templates).run.run w = (.ok file, w') →
      ∃ name, file.settings = { settings with template := some name } ∧
        Picks settings.template templates name ∧
        ∀ {σ' : Type} (source' : Source (StateM σ')) (v : σ') (templates' : Dictionary),
          (∀ key text, templates.get? key = some text → templates'.get? key = some text) →
          ((source'.fetch settings.service.source settings.service.requestOptions).run v).1 =
            ((source.fetch settings.service.source settings.service.requestOptions).run w).1 →
          ∃ again, ((generate source' dumpModel policy file.settings templates').run.run v).1 =
              .ok again ∧
            again.settings = file.settings ∧ again.model = file.model ∧
            SameBut Header.creationLabel file.contents again.contents) ∧
    ∀ {m : Type → Type} [Monad m] [LawfulMonad m] (source : Source m) (render : Renderer),
      Lacks settings.template templates →
      (generate source render policy settings templates).run = pure (.error (.templateNotFound
        (settings.template.getD ("*." ++ Template.fileExtension)))) := by
  constructor
  · intro file w' h
    obtain ⟨template, edmx, w₁, model, htemplate, hfetch, hmodel, created, _, _, -, hfile⟩ :=
      generate_ok h
    obtain rfl := compose_dumpModel hfile
    refine ⟨template.1, rfl, picks_of_selectTemplate htemplate, ?_⟩
    intro σ' source' v templates' hadded hsame
    have hagain : selectTemplate (some template.1) templates' = .ok template :=
      selectTemplate_added htemplate hadded
    rw [hfetch] at hsame
    obtain ⟨v', hrun⟩ := generate_composed source' dumpModel
      { settings with template := some template.1 } hagain hsame hmodel
    exact ⟨_, hrun, rfl, rfl, Header.sameBut_encode _ _ _ _⟩
  · intro m _ _ source render hlacks
    exact generate_of_not_selected source render policy (selectTemplate_of_lacks hlacks)

/-- The source of `bareSource` a day later. -/
def laterSource : Source (StateM Unit) := { bareSource with now := pure ⟨86400, 0⟩ }

def twoTemplates : Dictionary := .ofList [("C.ot", "c"), ("B.ot", "b")]

/-- A template that is added before the recorded one is not taken for it, and cannot be requested
before it is added. -/
theorem generate_pinned_two :
    ∃ file again,
      (generate bareSource dumpModel .firstProperty ⟨⟨"http://h/", .modular, {}⟩, none⟩
        twoTemplates).run.run () = (.ok file, ()) ∧
      file.settings = ⟨⟨"http://h/", .modular, {}⟩, some "B.ot"⟩ ∧
      ((generate laterSource dumpModel .firstProperty file.settings
        (twoTemplates.insert "A.ot" "a")).run.run ()).1 = .ok again ∧
      again.settings = file.settings ∧ again.model = file.model ∧
      SameBut Header.creationLabel file.contents again.contents ∧
      (generate bareSource dumpModel .firstProperty ⟨⟨"http://h/", .modular, {}⟩, some "A.ot"⟩
        twoTemplates).run = pure (.error (.templateNotFound "A.ot")) := by
  obtain ⟨file, hfile, hsettings⟩ : ∃ file,
      (generate bareSource dumpModel .firstProperty ⟨⟨"http://h/", .modular, {}⟩, none⟩
        twoTemplates).run.run () = (.ok file, ()) ∧
      file.settings = ⟨⟨"http://h/", .modular, {}⟩, some "B.ot"⟩ := ⟨_, rfl, rfl⟩
  obtain ⟨name, -, -, hpinned⟩ := (generate_pinned bareSource .firstProperty
    ⟨⟨"http://h/", .modular, {}⟩, none⟩ twoTemplates ()).1 file () hfile
  have hadded : ∀ key text, twoTemplates.get? key = some text →
      (twoTemplates.insert "A.ot" "a").get? key = some text := by
    intro key text h
    have hkey : key ≠ "A.ot" := by
      rintro rfl
      have hnone : twoTemplates.get? "A.ot" = none := by decide +kernel
      rw [hnone] at h
      nomatch h
    rw [Dictionary.get?_insert, if_neg hkey, h]
  obtain ⟨again, hrun, hsame, hmodel, hcontents⟩ := hpinned laterSource () _ hadded rfl
  refine ⟨file, again, hfile, hsettings, hrun, hsame, hmodel, hcontents, ?_⟩
  exact (generate_pinned bareSource .firstProperty ⟨⟨"http://h/", .modular, {}⟩, some "A.ot"⟩
    twoTemplates ()).2 bareSource dumpModel (Or.inl ⟨"A.ot", rfl, by decide +kernel⟩)

end Generator

end EdmxGen
