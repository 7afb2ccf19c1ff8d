import Mathlib.Data.List.Forall2
import EntityScaffold.Proofs.Artifact.Declaration
import EntityScaffold.Proofs.Text.Lines
import EntityScaffold.Proofs.Text.Renaming

/-!
# An artifact's own name

The class name of an artifact stands in its own text only where the type is declared and where it
is constructed, each time between characters that belong to no word. Everything else of the text is
made from the names of other artifacts. So the text with the class name replaced is the text that
is generated under a longer suffix (`Layer.rename_text?_eq`).
-/

namespace EntityScaffold

open Text

variable {old new : String}

namespace Listing

/-- Blocks of lines that are renamed line by line. -/
abbrev RenamedBlocks (old new : String) : List (List String) → List (List String) → Prop :=
  List.Forall₂ (List.Forall₂ (Renames old new))

/-- A listing is another one with a name replaced in its declaration and its members. -/
structure Renamed (old new : String) (l l' : Listing) : Prop where
  package : l.package = l'.package
  imports : l.imports = l'.imports
  markings : l.markings = l'.markings
  declaration : Renames old new l.declaration l'.declaration
  members : RenamedBlocks old new l.members l'.members

/-! ### Lines -/

theorem renames_lines (ls : List String) : List.Forall₂ (Renames old new) ls ls :=
  List.forall₂_same.2 fun l _ => .refl l

theorem renamed_blocks (ms : List (List String)) : RenamedBlocks old new ms ms :=
  List.forall₂_same.2 fun m _ => renames_lines m

theorem renames_opening {s s' : String} (h : Renames old new s s') :
    Renames old new (s ++ " \x7b") (s' ++ " \x7b") := h.append (by decide)

/-- Lines stay renamed if they are indented. -/
theorem renames_indent (hold : old ≠ "") (hnew : new ≠ "") {ls ls' : List String}
    (h : List.Forall₂ (Renames old new) ls ls') :
    List.Forall₂ (Renames old new) (indent ls) (indent ls') := by
  induction h with
  | nil => exact .nil
  | @cons l l' ls ls' hl _ ih =>
    refine .cons ?_ ih
    show Renames old new (if l = "" then l else indentation ++ l)
      (if l' = "" then l' else indentation ++ l')
    by_cases he : l = ""
    · rw [if_pos he, if_pos ((hl.eq_empty_iff hold hnew).1 he)]
      exact hl
    · rw [if_neg he, if_neg (mt (hl.eq_empty_iff hold hnew).2 he)]
      exact hl.prepend (by decide)

theorem renames_indent_blocks (hold : old ≠ "") (hnew : new ≠ "") {ms ms' : List (List String)}
    (h : RenamedBlocks old new ms ms') :
    RenamedBlocks old new (ms.map indent) (ms'.map indent) :=
  List.rel_map (fun _ _ hm => renames_indent hold hnew hm) h

/-- A block between braces stays renamed if what opens it is. -/
theorem renames_braced {opening opening' : String} (h : Renames old new opening opening')
    (body : List String) :
    List.Forall₂ (Renames old new) (braced opening body) (braced opening' body) :=
  .cons (renames_opening h) (renames_lines _)

theorem renames_spacedLines {ms ms' : List (List String)} (h : RenamedBlocks old new ms ms') :
    List.Forall₂ (Renames old new) (spacedLines ms) (spacedLines ms') := by
  induction h with
  | nil => exact .nil
  | cons hm hms ih =>
    cases hms with
    | nil => exact hm
    | cons => exact List.rel_append hm (.cons (.refl "") ih)

namespace Renamed

variable {l l' : Listing}

theorem typeLines (h : Renamed old new l l') (hold : old ≠ "") (hnew : new ≠ "") :
    List.Forall₂ (Renames old new) l.typeLines l'.typeLines := by
  unfold Listing.typeLines
  rw [h.markings]
  refine List.rel_append (renames_lines _) ?_
  have hopening := renames_opening h.declaration
  have hmembers := h.members
  generalize l.members = ms, l'.members = ms' at hmembers ⊢
  cases hmembers with
  | nil => exact .cons hopening (renames_lines _)
  | cons hm hms =>
    have hblocks := renames_indent_blocks hold hnew (.cons hm hms)
    exact List.rel_append (.cons hopening (.cons (.refl "") (renames_spacedLines hblocks)))
      (renames_lines _)

/-- **The text of a renamed listing is the renamed text.** -/
theorem render (h : Renamed old new l l') (hold : old ≠ "") (hnew : new ≠ "") :
    Renames old new l.render l'.render := by
  have hlines : List.Forall₂ (Renames old new) l.allLines l'.allLines := by
    unfold allLines packageLines importLines
    rw [h.package, h.imports]
    exact List.rel_append (renames_lines _) (h.typeLines hold hnew)
  exact (Renames.join hlines).append (by decide)

end Renamed

end Listing

/-! ### Suffixes -/

namespace Settings

/-- The settings with a longer suffix for one layer. -/
def extendSuffix (p : Settings) (k : Layer) (s : String) : Settings :=
  p.withLayer k { p.layer k with suffix := (p.layer k).suffix ++ s }

variable (p : Settings) (k j : Layer) (s : String) (m : Entity)

@[simp] theorem enabled_extendSuffix : (p.extendSuffix k s).enabled j = p.enabled j := by
  by_cases h : j = k <;> simp [extendSuffix, enabled, h]

@[simp] theorem isEnabled_extendSuffix : j.isEnabled (p.extendSuffix k s) = j.isEnabled p := by
  simp [Layer.isEnabled]

@[simp] theorem package_extendSuffix : j.package m (p.extendSuffix k s) = j.package m p := by
  by_cases h : j = k
  · subst h; simp [Layer.package, extendSuffix, package, withLayer]
  · simp [Layer.package, extendSuffix, package, withLayer, h]

/-- The suffix makes the class name of its own layer longer. -/
@[simp] theorem className_extendSuffix_self :
    k.className m (p.extendSuffix k s) = k.className m p ++ s := by
  simp [Layer.className, extendSuffix, String.append_assoc]

/-- The class names of all other layers stay. -/
theorem className_extendSuffix_of_ne (h : j ≠ k) :
    j.className m (p.extendSuffix k s) = j.className m p := by
  simp [Layer.className, extendSuffix, h]

theorem qualifiedName_extendSuffix_of_ne (h : j ≠ k) :
    j.qualifiedName m (p.extendSuffix k s) = j.qualifiedName m p := by
  rw [Layer.qualifiedName, Layer.identity, package_extendSuffix,
    className_extendSuffix_of_ne p k j s m h]
  rfl

end Settings

/-! ### Layers -/

namespace Artifact

open Listing

variable (m : Entity) (p : Settings) (s : String)

theorem renames_constructor (old new parameters : String) :
    Renames old new ("public " ++ old ++ ("(" ++ parameters))
      ("public " ++ new ++ ("(" ++ parameters)) := .between (by decide) (by decide) parameters

theorem renamed_dto :
    Renamed (Layer.dto.className m p) (Layer.dto.className m p ++ s) (dto m p)
      (dto m (p.extendSuffix .dto s)) where
  package := by simp [dto]
  imports := by
    simp only [dto, Settings.package_extendSuffix]
    rfl
  markings := rfl
  declaration := by
    simp only [dto, Settings.className_extendSuffix_self]
    exact Renames.name.prepend (by decide)
  members := renamed_blocks _

theorem renamed_mapper :
    Renamed (Layer.mapper.className m p) (Layer.mapper.className m p ++ s) (mapper m p)
      (mapper m (p.extendSuffix .mapper s)) where
  package := by simp [mapper]
  imports := by simp [mapper, Settings.qualifiedName_extendSuffix_of_ne]
  markings := rfl
  declaration := by
    simp only [mapper, Settings.className_extendSuffix_self]
    exact Renames.name.prepend (by decide)
  members := by
    simp only [mapper, Settings.className_extendSuffix_of_ne p .mapper .dto s m (by decide)]
    exact renamed_blocks _

theorem renamed_repository :
    Renamed (Layer.repository.className m p) (Layer.repository.className m p ++ s)
      (repository m p) (repository m (p.extendSuffix .repository s)) where
  package := by simp [repository]
  imports := by
    simp only [repository, Settings.package_extendSuffix]
    rfl
  markings := rfl
  declaration := by
    have h := @Renames.between (Layer.repository.className m p)
      (Layer.repository.className m p ++ s) "public interface " " extends JpaRepository<"
      (by decide) (by decide) (m.className ++ ", " ++ m.identifierType.render ++ ">")
    simpa only [repository, Settings.className_extendSuffix_self, String.append_assoc] using h
  members := renamed_blocks _

theorem renamed_service :
    Renamed (Layer.service.className m p) (Layer.service.className m p ++ s)
      (service m p) (service m (p.extendSuffix .service s)) where
  package := by simp [service]
  imports := by simp [service, Settings.qualifiedName_extendSuffix_of_ne]
  markings := rfl
  declaration := by
    simp only [service, Settings.className_extendSuffix_self]
    exact Renames.name.prepend (by decide)
  members := by
    simp only [service, Settings.className_extendSuffix_self,
      Settings.className_extendSuffix_of_ne p .service .repository s m (by decide)]
    -- the second member is the constructor
    refine .cons (renames_lines _) (.cons (renames_braced ?_ _) (renamed_blocks _))
    have h := renames_constructor (Layer.service.className m p) (Layer.service.className m p ++ s)
      (Layer.repository.className m p ++ " " ++
        Naming.decapitalize (Layer.repository.className m p) ++ ")")
    simpa only [String.append_assoc] using h

/-- A controller holds other artifacts only. -/
theorem collaborators_extendSuffix :
    collaborators m (p.extendSuffix .controller s) = collaborators m p := by
  have hservice := Settings.className_extendSuffix_of_ne p .controller .service s m (by decide)
  have hmapper := Settings.className_extendSuffix_of_ne p .controller .mapper s m (by decide)
  unfold collaborators
  rw [Settings.isEnabled_extendSuffix]
  cases Layer.mapper.isEnabled p <;> simp [hservice, hmapper]

/-- A controller refers to other artifacts only. -/
theorem siblingNames_extendSuffix :
    ((controllerSiblings (p.extendSuffix .controller s)).map fun k =>
        k.qualifiedName m (p.extendSuffix .controller s)) =
      (controllerSiblings p).map fun k => k.qualifiedName m p := by
  have hsiblings : controllerSiblings (p.extendSuffix .controller s) = controllerSiblings p := by
    unfold controllerSiblings
    rw [Settings.isEnabled_extendSuffix, Settings.enabled_extendSuffix]
  rw [hsiblings]
  refine List.map_congr_left fun k hk => ?_
  refine Settings.qualifiedName_extendSuffix_of_ne p .controller k s m ?_
  rintro rfl
  revert hk
  unfold controllerSiblings
  cases p.enabled .dto <;> cases Layer.mapper.isEnabled p <;> decide

/-- How a controller converts does not depend on its own name. -/
theorem ofSettings_extendSuffix :
    Conversion.ofSettings m (p.extendSuffix .controller s) = Conversion.ofSettings m p := by
  unfold Conversion.ofSettings
  rw [Settings.enabled_extendSuffix, Settings.isEnabled_extendSuffix,
    Settings.className_extendSuffix_of_ne p .controller .mapper s m (by decide)]

theorem renamed_controllerWith (conversion : Conversion) :
    Renamed (Layer.controller.className m p) (Layer.controller.className m p ++ s)
      (controllerWith conversion m p)
      (controllerWith conversion m (p.extendSuffix .controller s)) where
  package := by simp [controllerWith]
  imports := by
    simp only [controllerWith, Settings.package_extendSuffix, siblingNames_extendSuffix]
  markings := rfl
  declaration := by
    simp only [controllerWith, Settings.className_extendSuffix_self]
    exact Renames.name.prepend (by decide)
  members := by
    simp only [controllerWith, collaborators_extendSuffix, Settings.enabled_extendSuffix,
      Settings.className_extendSuffix_self,
      Settings.className_extendSuffix_of_ne p .controller .dto s m (by decide),
      Settings.className_extendSuffix_of_ne p .controller .service s m (by decide)]
    -- the second member is the constructor
    refine .cons (renames_lines _) (.cons (renames_braced ?_ _) (renamed_blocks _))
    have h := renames_constructor (Layer.controller.className m p)
      (Layer.controller.className m p ++ s)
      (Text.join ", " ((collaborators m p).map fun d => d.1 ++ " " ++ d.2) ++ ")")
    simpa only [String.append_assoc] using h

end Artifact

namespace Layer

variable {k : Layer} {m : Entity} {p : Settings} {s : String}

/-- **Under a longer suffix a layer gives the same listing, with a longer name.** -/
theorem exists_renamed_of_listing? {l' : Listing}
    (h : k.listing? m (p.extendSuffix k s) = .ok (some l')) :
    ∃ l, k.listing? m p = .ok (some l) ∧
      Listing.Renamed (k.className m p) (k.className m p ++ s) l l' := by
  cases k with
  | dto =>
    simp only [listing?, Except.ok.injEq, Option.some.injEq] at h
    exact ⟨_, rfl, h ▸ Artifact.renamed_dto m p s⟩
  | mapper =>
    simp only [listing?, Settings.enabled_extendSuffix, Except.ok.injEq] at h ⊢
    split at h
    · rename_i hdto
      simp only [Option.some.injEq] at h
      exact ⟨_, if_pos hdto, h ▸ Artifact.renamed_mapper m p s⟩
    · cases h
  | repository =>
    simp only [listing?, Except.ok.injEq, Option.some.injEq] at h
    exact ⟨_, rfl, h ▸ Artifact.renamed_repository m p s⟩
  | service =>
    simp only [listing?, Except.ok.injEq, Option.some.injEq] at h
    exact ⟨_, rfl, h ▸ Artifact.renamed_service m p s⟩
  | controller =>
    simp only [listing?, Artifact.controller, Artifact.ofSettings_extendSuffix] at h ⊢
    cases hc : Artifact.Conversion.ofSettings m p with
    | error fault => rw [hc] at h; cases h
    | ok c =>
      simp only [hc, Except.map, Except.ok.injEq, Option.some.injEq] at h
      exact ⟨_, rfl, h ▸ Artifact.renamed_controllerWith m p s c⟩

/-- A generated text holds a word. -/
theorem isWordOf_nil_of_text? {text : String} (h : k.text? m p = .ok (some text)) :
    IsWordOf [] text.toList := by
  obtain ⟨rest, x, y, htext, -⟩ := isLineOf_of_text? h
  refine isWordOf_nil (c := 'p') ?_ (by decide)
  rw [htext, declarationLine_eq]
  simp

/-- **To rename an artifact is to generate it under a longer suffix.** If a layer's class name and
what is put behind it are word characters, and the text under the longer name has the shorter one
nowhere as a whole word, then the layer has a text under the shorter name too, and renaming that
text gives the other one. -/
theorem rename_text?_eq {text' : String} (hname : (k.className m p).toList.all isWord = true)
    (hs : s.toList.all isWord = true)
    (h : k.text? m (p.extendSuffix k s) = .ok (some text'))
    (hn : ¬ IsWordOf (k.className m p).toList text'.toList) :
    ∃ text, k.text? m p = .ok (some text) ∧
      rename text (k.className m p) (k.className m p ++ s) = .ok text' := by
  have hold : k.className m p ≠ "" := fun he => hn (by simpa [he] using isWordOf_nil_of_text? h)
  have hnew : k.className m p ++ s ≠ "" := by simp [hold]
  obtain ⟨l', hl', rfl⟩ := text?_eq_some_iff.1 h
  obtain ⟨l, hl, hrenamed⟩ := exists_renamed_of_listing? hl'
  refine ⟨l.render, text?_eq_some_iff.2 ⟨l, hl, rfl⟩, ?_⟩
  refine (hrenamed.render hold hnew).rename_eq hold hname ?_ hn
  rw [String.toList_append, List.all_append, hname, hs]
  rfl

/-- The lines of the service of users, under a class name. -/
def userService (name : String) : List String :=
  ["package shop.service;", "", "import java.util.List;", "import java.util.Optional;",
   "import org.springframework.stereotype.Service;", "import shop.User;",
   "import shop.repository.UserRepository;", "", "@Service", "public class " ++ name ++ " \x7b", "",
   "    private final UserRepository userRepository;", "",
   "    public " ++ name ++ "(UserRepository userRepository) \x7b",
   "        this.userRepository = userRepository;", "    \x7d", "",
   "    public List<User> findAll() \x7b",
   "        return userRepository.findAll();", "    \x7d", "",
   "    public Optional<User> findById(Long id) \x7b",
   "        return userRepository.findById(id);", "    \x7d", "",
   "    public User save(User entity) \x7b",
   "        return userRepository.save(entity);", "    \x7d", "",
   "    public void deleteById(Long id) \x7b",
   "        userRepository.deleteById(id);", "    \x7d", "\x7d", ""]

/-- A service gets a number, where it is declared and where it is constructed. -/
theorem rename_text?_eq_service :
    let m : Entity := ⟨"User", "shop", "users", []⟩
    let p : Settings := { Settings.standard with accessorStyle := false }
    ∃ text, service.text? m p = .ok (some text) ∧
      rename text "UserService" "UserService2" = .ok (join "\n" (userService "UserService2")) := by
  intro m p
  have hname : service.className m p = "UserService" := by decide +kernel
  have hblock : ImportBlock.lines (Artifact.service m (p.extendSuffix service "2")).imports =
      ["import java.util.List;", "import java.util.Optional;",
       "import org.springframework.stereotype.Service;", "import shop.User;",
       "import shop.repository.UserRepository;"] :=
    sortedSet_eq (by decide +kernel) (by decide +kernel) (by decide +kernel)
  have hlines : (Artifact.service m (p.extendSuffix service "2")).allLines ++ [""] =
      userService "UserService2" := by
    rw [Listing.allLines, Listing.importLines, hblock]
    decide +kernel
  have htext : service.text? m (p.extendSuffix service "2") =
      .ok (some (join "\n" (userService "UserService2"))) := by
    refine text?_eq_some_iff.2 ⟨_, rfl, ?_⟩
    rw [← hlines, join_concat "\n" (List.ne_nil_of_mem (Listing.declaration_mem_allLines _)),
      String.append_empty]
    rfl
  have hword : ¬ IsWordOf "UserService".toList (join "\n" (userService "UserService2")).toList :=
    IsWordName.not_isWordOf_join (by decide) rfl (by decide) (by decide +kernel)
  obtain ⟨text, hown, hrename⟩ := rename_text?_eq (s := "2") (by rw [hname]; decide) (by decide)
    htext (by rwa [hname])
  rw [hname] at hrename
  exact ⟨text, hown, hrename⟩

end Layer

end EntityScaffold
