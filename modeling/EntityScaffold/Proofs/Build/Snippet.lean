import EntityScaffold.Command.Program
import EntityScaffold.Proofs.Text.Cut

/-!
# Putting a snippet into a build file

A build file is searched for the spellings of libraries (`BuildFile.names_iff`). None of them
reaches over the end of a line, so lines that are put between two lines of a file take none of them
away (`Text.infix_insert`). A snippet spells a library for each known feature that is missing
(`BuildFile.has_snippet`). So a file with its snippet offers everything that the settings require
and everything it offered before (`BuildFile.isOk_of_snippet`).
-/

namespace EntityScaffold

/-! ### Places between lines -/

/-- Lines can be put between the two texts: one of them is empty, or the first one ends a line. -/
def Text.IsLineBreak (before after : String) : Prop :=
  before = "" ∨ after = "" ∨ ∃ s, before = s ++ "\n"

/-- What stands in a text and has no line end still stands there after lines are put in. -/
theorem Text.infix_insert {w : List Char} {before after : String} (hw : '\n' ∉ w)
    (hbreak : Text.IsLineBreak before after) (h : w <:+: (before ++ after).toList)
    (lines : String) : w <:+: (before ++ lines ++ after).toList := by
  simp only [String.toList_append] at h ⊢
  rcases hbreak with rfl | rfl | ⟨s, rfl⟩
  · exact h.trans (List.suffix_append _ _).isInfix
  · rw [String.toList_empty, List.append_nil] at h ⊢
    exact h.trans (List.prefix_append _ _).isInfix
  · have hline : (s ++ "\n").toList = s.toList ++ ['\n'] := String.toList_append
    simp only [hline, List.append_assoc, List.cons_append] at h ⊢
    rw [infix_append_cons_iff hw] at h ⊢
    exact h.imp_right fun h => h.trans (List.suffix_append _ _).isInfix

/-! ### Spellings of a library -/

/-- The ways in which files of a kind name a library. -/
def BuildKind.spellings (k : BuildKind) (library : String) : List String :=
  match k with
  | .maven => [Snippet.element "artifactId" library]
  | _ => [":" ++ library ++ ":", ":" ++ library ++ "'", ":" ++ library ++ "\""]

/-- A spelling of a library is on one line if the library is. -/
theorem BuildKind.newline_notMem_of_mem_spellings {k : BuildKind} {library s : String}
    (h : '\n' ∉ library.toList) (hs : s ∈ k.spellings library) : '\n' ∉ s.toList := by
  cases k <;> simp only [spellings, List.mem_cons, List.not_mem_nil, or_false] at hs <;>
    rcases hs with rfl | rfl | rfl <;> simp [Snippet.element, h]

namespace Feature

theorem newline_notMem_of_mem_providers {f : Feature} {library : String}
    (h : library ∈ f.providers) : '\n' ∉ library.toList := by
  have hall : f.providers.all fun s => !s.toList.contains '\n' := by
    cases f with
    | other name => rfl
    | _ => decide
  simpa using List.all_eq_true.1 hall library h

/-- One of the libraries that bring a known feature is looked for in build files. -/
theorem exists_library (f : Feature) (h : f.providers ≠ []) :
    ∃ c ∈ f.libraries, c.artifact ∈ f.providers := by
  cases f with
  | other name => exact absurd rfl h
  | _ => decide

end Feature

namespace BuildFile

/-- A library is named by a file iff one of its spellings stands there. -/
theorem names_iff {b : BuildFile} {library : String} :
    b.names library = true ↔ ∃ s ∈ b.kind.spellings library, s.toList <:+: b.text.toList := by
  obtain ⟨kind, text⟩ := b
  cases kind <;>
    simp [names, BuildKind.spellings, Snippet.element, Text.contains_iff_infix, or_assoc]

theorem has_iff {b : BuildFile} {f : Feature} :
    b.has f = true ↔ f.providers = [] ∨ ∃ library ∈ f.providers, b.names library = true := by
  simp [has]

/-- A file that holds another one offers what that one offers. -/
theorem has_of_infix {k : BuildKind} {s t : String} {f : Feature}
    (hst : s.toList <:+: t.toList) (h : (mk k s).has f = true) : (mk k t).has f = true := by
  rw [has_iff] at h ⊢
  refine h.imp_right fun ⟨library, hmem, hnames⟩ => ⟨library, hmem, ?_⟩
  obtain ⟨w, hw, hin⟩ := names_iff.1 hnames
  exact names_iff.2 ⟨w, hw, hin.trans hst⟩

/-- A file offers what it offered before lines are put in. -/
theorem has_insert {k : BuildKind} {before after : String} {f : Feature}
    (hbreak : Text.IsLineBreak before after) (h : (mk k (before ++ after)).has f = true)
    (lines : String) : (mk k (before ++ lines ++ after)).has f = true := by
  rw [has_iff] at h ⊢
  refine h.imp_right fun ⟨library, hmem, hnames⟩ => ⟨library, hmem, ?_⟩
  obtain ⟨w, hw, hin⟩ := names_iff.1 hnames
  have hline := BuildKind.newline_notMem_of_mem_spellings
    (Feature.newline_notMem_of_mem_providers hmem) hw
  exact names_iff.2 ⟨w, hw, Text.infix_insert hline hbreak hin lines⟩

end BuildFile

/-! ### What a snippet spells -/

/-- The snippet that is shown for files of a kind. -/
def BuildKind.snippet (k : BuildKind) (missing : List Feature) : String :=
  match k with
  | .gradleGroovy => Snippet.gradle false missing
  | .gradleKotlin => Snippet.gradle true missing
  | .maven | .unknown => Snippet.maven missing

/-- It is what the command shows that reports missing features, unless another form is asked for. -/
theorem Program.snippet_formatFor (missing : List Feature) (k : BuildKind) :
    ∃ language, snippet missing (formatFor k) = .code language (k.snippet missing) := by
  cases k <;> exact ⟨_, rfl⟩

namespace Snippet

variable {missing : List Feature} {f : Feature} {c : Library}

/-- The entry of a library for a Maven file names it. -/
theorem infix_mavenEntry (c : Library) :
    (element "artifactId" c.artifact).toList <:+: (mavenEntry c).toList := by
  have hline : "    " ++ element "artifactId" c.artifact ∈
      ["<dependency>", "    " ++ element "groupId" c.group,
        "    " ++ element "artifactId" c.artifact] ++
      (c.version.toList.map fun v => "    " ++ element "version" v) ++
      (c.mavenScope.toList.map fun s => "    " ++ element "scope" s) ++ ["</dependency>"] := by
    simp
  refine List.IsInfix.trans ?_ (Text.infix_join_of_mem "\n" hline)
  rw [String.toList_append]
  exact (List.suffix_append _ _).isInfix

/-- The line of a library for a Gradle file names it. The colon before the name is the one after
the group, and what follows it is the colon before the version or the quote at the end. -/
theorem infix_gradleLine (kotlin : Bool) (c : Library) :
    ∃ s ∈ [":" ++ c.artifact ++ ":", ":" ++ c.artifact ++ "'", ":" ++ c.artifact ++ "\""],
      s.toList <:+: (gradleLine kotlin c).toList := by
  obtain ⟨group, artifact, version, scope, configuration⟩ := c
  cases version with
  | some v =>
    refine ⟨":" ++ artifact ++ ":", by simp, ?_⟩
    cases kotlin
    · exact ⟨(configuration ++ " '" ++ group).toList, (v ++ "'").toList, by
        simp [gradleLine, Library.text]⟩
    · exact ⟨(configuration ++ "(\"" ++ group).toList, (v ++ "\")").toList, by
        simp [gradleLine, Library.text]⟩
  | none =>
    cases kotlin
    · exact ⟨":" ++ artifact ++ "'", by simp, (configuration ++ " '" ++ group).toList, [], by
        simp [gradleLine, Library.text]⟩
    · exact ⟨":" ++ artifact ++ "\"", by simp, (configuration ++ "(\"" ++ group).toList, [')'], by
        simp [gradleLine, Library.text]⟩

/-- An entry stands in the lines of all entries below their heading. -/
theorem infix_listed (heading : String) {entries : List String} {s : String} (h : s ∈ entries) :
    s.toList <:+: (Text.join "\n" (heading :: entries) ++ "\n").toList := by
  rw [String.toList_append]
  exact (Text.infix_join_of_mem "\n" (List.mem_cons_of_mem heading h)).trans
    (List.prefix_append _ _).isInfix

/-- The lines for a Maven file hold each library of a feature that is missing. -/
theorem infix_maven (hf : f ∈ missing) (hc : c ∈ f.libraries) :
    (mavenEntry c).toList <:+: (maven missing).toList := by
  have hne : missing.isEmpty = false := List.isEmpty_eq_false_iff.2 (List.ne_nil_of_mem hf)
  rw [maven, hne, if_neg Bool.false_ne_true]
  refine infix_listed _ (List.mem_eraseDups.2 ?_)
  exact List.mem_flatMap.2 ⟨f, hf, List.mem_map_of_mem hc⟩

/-- The lines for a Gradle file hold each library of a feature that is missing. -/
theorem infix_gradle (kotlin : Bool) (hf : f ∈ missing) (hc : c ∈ f.libraries) :
    (gradleLine kotlin c).toList <:+: (gradle kotlin missing).toList := by
  have hne : missing.isEmpty = false := List.isEmpty_eq_false_iff.2 (List.ne_nil_of_mem hf)
  rw [gradle, hne, if_neg Bool.false_ne_true]
  exact infix_listed _ (List.mem_flatMap.2 ⟨f, hf, List.mem_map_of_mem hc⟩)

end Snippet

namespace BuildFile

/-- A known feature is offered by the snippet for it, in each kind of file. -/
theorem has_snippet {k : BuildKind} (hk : k ≠ .unknown) {missing : List Feature} {f : Feature}
    (hf : f ∈ missing) (hknown : f.providers ≠ []) : (mk k (k.snippet missing)).has f = true := by
  obtain ⟨c, hc, hprovider⟩ := f.exists_library hknown
  refine has_iff.2 (Or.inr ⟨c.artifact, hprovider, names_iff.2 ?_⟩)
  cases k with
  | unknown => exact absurd rfl hk
  | maven =>
    exact ⟨_, List.mem_cons_self, (Snippet.infix_mavenEntry c).trans (Snippet.infix_maven hf hc)⟩
  | gradleGroovy | gradleKotlin =>
    exact (Snippet.infix_gradleLine _ c).imp fun s h =>
      ⟨h.1, h.2.trans (Snippet.infix_gradle _ hf hc)⟩

/-- **A snippet makes a file complete.** Put in between two lines of a file, the lines for what
the file misses make it offer all that the settings require. What it offered before stays. -/
theorem isOk_of_snippet (p : Settings) {k : BuildKind} (hk : k ≠ .unknown) {before after : String}
    (hbreak : Text.IsLineBreak before after) :
    let missing := (FeatureReport.ofSettings (mk k (before ++ after)).has p).missing
    let extended := mk k (before ++ k.snippet missing ++ after)
    (FeatureReport.ofSettings extended.has p).isOk = true ∧
      ∀ f, (mk k (before ++ after)).has f = true → extended.has f = true := by
  intro missing extended
  have hkept : ∀ f, (mk k (before ++ after)).has f = true → extended.has f = true :=
    fun f h => has_insert hbreak h _
  refine ⟨List.isEmpty_iff.2 (List.filter_eq_nil_iff.2 fun f hf => ?_), hkept⟩
  suffices h : extended.has f = true by simp [h]
  by_cases hhad : (mk k (before ++ after)).has f = true
  · exact hkept f hhad
  · -- the feature was missing, so something is known of it and the snippet has its lines
    have hmissing : f ∈ missing := List.mem_filter.2 ⟨hf, by simpa using hhad⟩
    have hknown : f.providers ≠ [] := fun h => hhad (has_iff.2 (Or.inl h))
    refine has_of_infix ?_ (has_snippet hk hmissing hknown)
    rw [String.toList_append, String.toList_append]
    exact ((List.suffix_append _ _).isInfix).trans (List.prefix_append _ _).isInfix

/-- A Maven file that names the library for repositories, with the standard settings: the lines for
what else they require go before its last line. -/
theorem isOk_of_snippet_pom :
    let before := "<artifactId>spring-boot-starter-data-jpa</artifactId>\n"
    let after := "</dependencies>\n"
    let missing := (FeatureReport.ofSettings (mk .maven (before ++ after)).has .standard).missing
    let extended := mk .maven (before ++ BuildKind.maven.snippet missing ++ after)
    BuildKind.maven ≠ .unknown ∧ Text.IsLineBreak before after ∧
      missing = [.springWeb, .mapStruct, .lombok] ∧
      (FeatureReport.ofSettings extended.has .standard).isOk = true ∧
      ∀ f, (mk .maven (before ++ after)).has f = true → extended.has f = true := by
  intro before after missing extended
  have hbreak : Text.IsLineBreak before after :=
    Or.inr (Or.inr ⟨"<artifactId>spring-boot-starter-data-jpa</artifactId>", rfl⟩)
  exact ⟨by decide, hbreak, by decide +kernel, isOk_of_snippet .standard (by decide) hbreak⟩

end BuildFile

end EntityScaffold
