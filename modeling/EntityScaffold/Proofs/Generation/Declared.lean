import EntityScaffold.Proofs.Artifact.Declaration
import EntityScaffold.Proofs.Generation.Emission
import EntityScaffold.Proofs.Generation.Request

/-!
# What written files declare

A file that is reported as written declares the type it is filed under, if its artifact was not
renamed, or if the artifact's class name starts and ends with word characters. A renamed artifact
whose class name does not, such as one that ends with a dollar sign, still declares its old name;
and renaming brings about no declaration of the new one (`RunRequest.declares_of_written`).
-/

namespace EntityScaffold

open Text

/-- The text declares a public type of a name. -/
def Declares (text name : String) : Prop :=
  contains text ("public class " ++ name ++ " ") = true ∨
    contains text ("public interface " ++ name ++ " ") = true

instance (text name : String) : Decidable (Declares text name) :=
  inferInstanceAs (Decidable (_ ∨ _))

/-! ### Texts that declare a name -/

theorem declares_iff {text name : String} :
    Declares text name ↔ ∃ keyword ∈ ["class", "interface"],
      declarationLine keyword name.toList [] <:+: text.toList := by
  have hclass : "public class ".toList = "public".toList ++ ' ' :: ("class".toList ++ [' ']) := by
    decide
  have hinterface : "public interface ".toList =
      "public".toList ++ ' ' :: ("interface".toList ++ [' ']) := by
    decide
  have hblank : " ".toList = [' '] := by decide
  simp only [Declares, contains_iff_infix, String.toList_append, hclass, hinterface, hblank,
    declarationLine_eq, List.append_assoc, List.cons_append, List.nil_append, List.mem_cons,
    List.not_mem_nil, or_false, exists_eq_or_imp, exists_eq_left]

theorem keyword_mem (k : Layer) : k.keyword ∈ ["class", "interface"] := by
  cases k <;> simp [Layer.keyword]

/-- A text declares what one of its lines declares. -/
theorem declares_of_isLineOf {k : Layer} {text name : String} {rest : List Char}
    (h : IsLineOf (declarationLine k.keyword name.toList rest) text.toList) :
    Declares text name := by
  obtain ⟨x, y, htext, -⟩ := h
  refine declares_iff.2 ⟨k.keyword, keyword_mem k, x, rest ++ '\n' :: y, ?_⟩
  simp [htext, declarationLine_eq]

/-- The mark on a text declares nothing. -/
theorem declares_markedText {text name : String} (hname : '\n' ∉ name.toList) :
    Declares (markedText text) name ↔ Declares text name := by
  rw [declares_iff, declares_iff, toList_markedText]
  refine exists_congr fun keyword => and_congr_right fun hk => ?_
  have hline : '\n' ∉ declarationLine keyword name.toList [] := by
    simp only [List.mem_cons, List.not_mem_nil, or_false] at hk
    rcases hk with rfl | rfl <;> simp [declarationLine_eq, hname]
  rw [infix_append_cons_iff hline, or_iff_right]
  intro hin
  have hpublic : "public".toList <:+: generatedMarker.toList :=
    List.infix_append_left.trans hin
  rw [← occursIn_iff_infix] at hpublic
  revert hpublic
  decide

/-- A numbered name has only characters of the name and digits. -/
theorem notMem_numbered {name : String} (h : isIdentifier name.toList = true) {c : Char}
    (hc : isIdentifierPart c = false) (hd : c.isDigit = false) (n : Nat) :
    c ∉ (name ++ toString n).toList := by
  rw [String.toList_append, List.mem_append]
  rintro (hm | hm)
  · exact notMem_of_isIdentifier h hc hm
  · rw [isDigit_of_mem_toString hm] at hd
    cases hd

/-- Under which name a renamed text declares its type. Where the name is not delimited, nothing new
is declared. -/
theorem declares_rename {k : Layer} {text text' name : String} {rest : List Char} {n : Nat}
    (h : IsLineOf (declarationLine k.keyword name.toList rest) text.toList)
    (hname : Java.IsIdentifier name) (hr : rename text name (name ++ toString n) = .ok text') :
    if IsDelimited name.toList then Declares text' (name ++ toString n)
    else Declares text' name ∧
      (Declares text' (name ++ toString n) → Declares text (name ++ toString n)) := by
  have hchars := hname.isIdentifier
  have hne : ∀ word ∈ Java.Token.keywords, name.toList ≠ word.toList := fun word hw he =>
    hname.notMem_keywords (String.toList_injective he ▸ hw)
  have hk : k.keyword ∈ Java.Token.keywords ∧ k.keyword.toList.all isWord = true := by
    cases k <;> decide
  rw [rename, Template.expand_eq_self (notMem_numbered hchars (by decide) (by decide) n)] at hr
  obtain rfl := Except.ok.inj hr
  obtain ⟨rest', hline⟩ := replaceWord_declarationLine hk.2 hchars (hne _ (by decide))
    (hne _ hk.1) (name ++ toString n).toList rest
  have hlines := h.replaceWord (ne_nil_of_isIdentifier hchars)
    (notMem_of_isIdentifier hchars (by decide)) (name ++ toString n).toList
  rw [hline, ← String.toList_ofList (l := replaceWord _ _ _)] at hlines
  split_ifs at hlines ⊢ with hd
  · exact declares_of_isLineOf hlines
  · refine ⟨declares_of_isLineOf hlines, fun hnew => ?_⟩
    obtain ⟨keyword, hmem, hin⟩ := declares_iff.1 hnew
    refine declares_iff.2 ⟨keyword, hmem, ?_⟩
    have hword : keyword.toList.all isWord = true := by
      simp only [List.mem_cons, List.not_mem_nil, or_false] at hmem
      rcases hmem with rfl | rfl <;> decide
    rw [String.toList_ofList, String.toList_append] at hin
    rw [String.toList_append]
    refine declarationLine_infix_of_replaceWord hword hchars hd ?_ (fun c hc => ?_) hin
    · simp
    · exact isDigit_of_mem_toString hc

namespace Artifact

variable {a : Artifact} {m : Entity} {p : Settings}

/-- **What an artifact declares where it is filed**: its own name under its own identity, and under
a numbered one the numbered name if its own starts and ends with word characters. Otherwise it still
declares its own name, and the numbered one only if it did so all along. -/
theorem declares_of_filed {d : Decision} {id : Identity} {text : String} (ha : a.IsOf m p)
    (hname : Java.IsIdentifier (a.layer.className m p))
    (hd : ∀ name, d = .rename name → name ∈ Batch.candidates none a.className)
    (hf : a.filed d = .ok (some (id, text))) :
    id = a.identity ∧ Declares (markedText text) a.className ∨
      ∃ n : Nat, id = { a.identity with className := a.className ++ toString (n + 2) } ∧
        if IsDelimited a.className.toList then Declares (markedText text) id.className
        else Declares (markedText text) a.className ∧
          (Declares (markedText text) id.className → Declares a.text id.className) := by
  have hown : a.layer.className m p = a.className := by rw [className, ha.identity]; rfl
  obtain ⟨rest, hline⟩ := Layer.isLineOf_of_text? ha.text
  rw [hown] at hname hline
  have hchars := hname.isIdentifier
  have hmarked : ∀ t, Declares (markedText t) a.className ↔ Declares t a.className := fun t =>
    declares_markedText (notMem_of_isIdentifier hchars (by decide))
  rcases filed_eq_some hf with ⟨-, rfl, rfl⟩ | ⟨name, hren, rfl, hr⟩
  · exact Or.inl ⟨rfl, (hmarked _).2 (declares_of_isLineOf hline)⟩
  · obtain ⟨n, -, rfl⟩ := List.mem_map.1 (hd name hren)
    refine Or.inr ⟨n, rfl, ?_⟩
    rw [hmarked, declares_markedText (notMem_numbered hchars (by decide) (by decide) _)]
    exact declares_rename hline hname hr

end Artifact

namespace RunRequest

variable {σ : Type}

/-- What a run makes are artifacts of the entity that its class describes. -/
theorem isOf_of_makes {r : RunRequest σ} {x : MemoryStore × σ} {artifacts : List Artifact} {s : σ}
    {a : Artifact} (h : r.Makes x artifacts s) (ha : a ∈ artifacts) :
    a.IsOf (Entity.describe r.table r.cls) r.settings := by
  obtain ⟨m, concerns, missing, had, hall⟩ := h
  obtain rfl : Entity.describe r.table r.cls = m := by
    have hm := r.partner.ofClass?_of_admitted (congrArg Prod.fst had)
    unfold Entity.ofClass? at hm
    split at hm <;> cases hm
    rfl
  exact Artifact.isOf_of_mem_all hall ha

/-- What a run reports as written is there, with the text of an artifact that the run files under
it. -/
theorem exists_filed_of_written (r : RunRequest σ) (x : MemoryStore × σ) {report : RunReport}
    (hrun : (r.run x).1 = .ok report) {e : FiledArtifact} (he : e ∈ report.written) :
    ∃ (a : Artifact) (d : Decision) (text : String),
      a.IsOf (Entity.describe r.table r.cls) r.settings ∧
        (∀ name, d = .rename name → name ∈ Batch.candidates r.partner.alternative a.className) ∧
        a.filed d = .ok (some (e.id, text)) ∧
        (r.run x).2.1.text? e.id = some (markedText text) := by
  rcases r.run_cases x with ⟨stop, s, hstop, hr⟩ | ⟨fault, s, -, hr⟩ |
    ⟨plan, concerns, missing, s, hplan, hemit⟩
  · rw [hr] at hrun
    cases hrun
    rw [hstop.written] at he
    cases he
  · rw [hr] at hrun
    cases hrun
  · rw [hemit] at hrun ⊢
    obtain ⟨a, d, text, hm, hf, htext⟩ := r.partner.text?_of_written hrun he (by simp)
    obtain ⟨s', hmake⟩ := exists_makes_of_plans hplan
    refine ⟨a, d, text, isOf_of_makes hmake (List.mem_map_of_mem hm), ?_, hf, htext⟩
    rintro name rfl
    exact (free_of_plans_rename hplan hm).1

/-- **What written files declare.** Where renamed artifacts are numbered and all class names are
identifiers, the file of everything that a run reports as written is there, made from the text of a
layer. It is filed under the identity of the layer's artifact and declares that class name; or it is
filed under a number, and declares the numbered name if the class name starts and ends with word
characters. Otherwise it still declares the class name, and the numbered name only if the text of
the layer did so already. -/
theorem declares_of_written (r : RunRequest σ) (x : MemoryStore × σ) {report : RunReport}
    (hdefault : r.partner.alternative = none)
    (hnames : ∀ k : Layer, k.isEnabled r.settings = true →
      Java.IsIdentifier (k.className (Entity.describe r.table r.cls) r.settings))
    (hrun : (r.run x).1 = .ok report) {e : FiledArtifact} (he : e ∈ report.written) :
    ∃ (k : Layer) (generated text : String), k.isEnabled r.settings = true ∧
      k.text? (Entity.describe r.table r.cls) r.settings = .ok (some generated) ∧
      (r.run x).2.1.text? e.id = some text ∧
      let own := k.identity (Entity.describe r.table r.cls) r.settings
      (e.id = own ∧ Declares text own.className ∨
        ∃ n : Nat, e.id = { own with className := own.className ++ toString (n + 2) } ∧
          if IsDelimited own.className.toList then Declares text e.id.className
          else Declares text own.className ∧
            (Declares text e.id.className → Declares generated e.id.className)) := by
  obtain ⟨a, d, text, ha, hd, hf, htext⟩ := r.exists_filed_of_written x hrun he
  refine ⟨a.layer, a.text, markedText text, ha.isEnabled, ha.text, htext, ?_⟩
  rw [← ha.identity]
  rw [hdefault] at hd
  exact Artifact.declares_of_filed ha (hnames _ ha.isEnabled) hd hf

/-- A transfer object with a name that ends with a dollar sign, and somebody who renames it. -/
def withDollar : RunRequest Unit := ofUser (.constant (.once .rename)) "$"

/-- A store that has the transfer object. -/
def dollarStore : MemoryStore := { files := [(⟨"shop.dto", "User$"⟩, "")] }

theorem run_withDollar :
    (withDollar.run (dollarStore, ())).1 =
      .ok { status := .ok, written := [⟨.dto, ⟨"shop.dto", "User$2"⟩⟩] } := by
  decide +kernel

theorem eq_dto_of_isEnabled {k : Layer} (h : k.isEnabled withDollar.settings = true) :
    k = .dto := by
  revert h
  cases k <;> decide

theorem text?_withDollar :
    Layer.dto.text? (Entity.describe withDollar.table withDollar.cls) withDollar.settings =
      .ok (some "package shop.dto;\n\npublic class User$ \x7b\n\x7d\n") := by
  decide +kernel

theorem isIdentifier_withDollar (k : Layer) (h : k.isEnabled withDollar.settings = true) :
    Java.IsIdentifier
      (k.className (Entity.describe withDollar.table withDollar.cls) withDollar.settings) := by
  obtain rfl := eq_dto_of_isEnabled h
  decide +kernel

/-- The renamed transfer object declares its old name, and not the new one. -/
theorem declares_old_name_withDollar :
    ∃ text, (withDollar.run (dollarStore, ())).2.1.text? ⟨"shop.dto", "User$2"⟩ = some text ∧
      Declares text "User$" ∧ ¬ Declares text "User$2" := by
  obtain ⟨k, generated, text, hk, hgenerated, htext, h⟩ := declares_of_written withDollar
    (dollarStore, ()) rfl isIdentifier_withDollar run_withDollar (List.mem_singleton_self _)
  obtain rfl := eq_dto_of_isEnabled hk
  rw [text?_withDollar, Except.ok.injEq, Option.some.injEq] at hgenerated
  subst hgenerated
  refine ⟨text, htext, ?_⟩
  rcases h with ⟨hid, -⟩ | ⟨n, -, h⟩
  · exact absurd hid (by decide +kernel)
  · rw [if_neg (by decide +kernel)] at h
    exact ⟨h.1, fun hnew => absurd (h.2 hnew) (by decide)⟩

/-- **Not every written file declares the type it is filed under.** -/
theorem exists_written_without_declaration :
    ¬ ∀ (r : RunRequest Unit) (x : MemoryStore × Unit) (report : RunReport),
      r.partner.alternative = none →
      (∀ k : Layer, k.isEnabled r.settings = true →
        Java.IsIdentifier (k.className (Entity.describe r.table r.cls) r.settings)) →
      (r.run x).1 = .ok report → ∀ e ∈ report.written,
        ∃ text, (r.run x).2.1.text? e.id = some text ∧ Declares text e.id.className := by
  intro h
  obtain ⟨stored, hstored, hdeclares⟩ := h withDollar (dollarStore, ()) _ rfl
    isIdentifier_withDollar run_withDollar _ (List.mem_singleton_self _)
  obtain ⟨a, d, text, ha, hd, hf, htext⟩ := exists_filed_of_written withDollar (dollarStore, ())
    run_withDollar (List.mem_singleton_self _)
  obtain rfl : stored = markedText text := Option.some.inj (hstored.symm.trans htext)
  have hlayer : a.layer = .dto := eq_dto_of_isEnabled ha.isEnabled
  have hid : a.identity = ⟨"shop.dto", "User$"⟩ := by
    rw [ha.identity, hlayer]
    decide
  have hown := ha.text
  rw [hlayer, text?_withDollar, Except.ok.injEq, Option.some.injEq] at hown
  rcases Artifact.declares_of_filed ha (isIdentifier_withDollar _ ha.isEnabled) hd hf with
    ⟨hsame, -⟩ | ⟨n, -, hnumbered⟩
  · rw [hid] at hsame
    exact absurd hsame (by decide)
  · rw [Artifact.className, hid, if_neg (by decide), ← hown] at hnumbered
    exact absurd (hnumbered.2 hdeclares) (by decide)

end RunRequest

end EntityScaffold
