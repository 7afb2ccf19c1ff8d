import Mathlib.Data.List.SplitBy
import EntityScaffold.Proofs.Text.WholeWord

/-!
# Renaming run by run

A text falls into runs, the longest stretches in which either all characters are word characters or
none is. There is one way to cut a text like this (`runs_eq_iff`). A name of word characters is
whole exactly where it is a run, since no search for it reaches over the end of one
(`replaceWord_append`). So to rename is to exchange runs, and the runs of the new text are those of
the old one, each exchanged or as it was (`runs_replaceWord`): no name grows together with what
stands around it. If the new name was no run of the text, renaming back gives the text back
(`rename_exchanges_runs`).
-/

namespace EntityScaffold.Text

/-! ### Runs -/

/-- The longest stretches of a text with word characters only, or with none. -/
def runs (s : List Char) : List (List Char) := s.splitBy fun c d => isWord c == isWord d

/-- What texts have to be to be the runs of one: none is empty, the characters of each are of one
class, and between two of them is a word boundary. -/
structure IsRuns (rs : List (List Char)) : Prop where
  ne_nil : ∀ r ∈ rs, r ≠ []
  uniform : ∀ r ∈ rs, ∀ c ∈ r, ∀ d ∈ r, isWord c = isWord d
  boundary : rs.IsChain fun r r' => isBoundary r.getLast? r'.head? = true

/-- If neighbours are of one class, all characters are. -/
theorem isChain_isWord_iff {r : List Char} :
    r.IsChain (fun c d => (isWord c == isWord d) = true) ↔
      ∀ c ∈ r, ∀ d ∈ r, isWord c = isWord d := by
  have : Trans (fun c d => (isWord c == isWord d) = true)
      (fun c d => (isWord c == isWord d) = true) fun c d => (isWord c == isWord d) = true :=
    ⟨fun h h' => by simp_all⟩
  have : Std.Symm fun c d => (isWord c == isWord d) = true := ⟨fun _ _ h => by simp_all⟩
  rw [List.isChain_iff_pairwise]
  constructor
  · intro h c hc d hd
    exact eq_of_beq (h.forall_of_forall (fun _ _ => beq_self_eq_true _) hc hd)
  · intro h
    exact List.pairwise_of_forall_mem_list fun c hc d hd => beq_iff_eq.2 (h c hc d hd)

/-- Between texts that are not empty is a word boundary if the characters there are of different
classes. -/
theorem isBoundary_iff {r r' : List Char} (hr : r ≠ []) (hr' : r' ≠ []) :
    isBoundary r.getLast? r'.head? = true ↔
      (isWord (r.getLast hr) == isWord (r'.head hr')) = false := by
  rw [List.getLast?_eq_some_getLast hr, List.head?_eq_some_head hr']
  simp [isBoundary]

/-- **There is one way to cut a text into runs.** -/
theorem runs_eq_iff {s : List Char} {rs : List (List Char)} :
    runs s = rs ↔ rs.flatten = s ∧ IsRuns rs := by
  rw [runs, List.splitBy_eq_iff]
  simp only [isChain_isWord_iff]
  constructor
  · rintro ⟨rfl, hnil, huniform, hchain⟩
    refine ⟨rfl, fun r hr he => hnil (he ▸ hr), huniform, hchain.imp ?_⟩
    rintro r r' ⟨hr, hr', hne⟩
    exact (isBoundary_iff hr hr').2 hne
  · rintro ⟨rfl, h⟩
    refine ⟨rfl, fun hnil => h.ne_nil [] hnil rfl, h.uniform, h.boundary.imp_of_mem_imp ?_⟩
    intro r r' hr hr' hb
    exact ⟨h.ne_nil r hr, h.ne_nil r' hr', (isBoundary_iff _ _).1 hb⟩

theorem flatten_runs (s : List Char) : (runs s).flatten = s := (runs_eq_iff.1 rfl).1

theorem isRuns_runs (s : List Char) : IsRuns (runs s) := (runs_eq_iff.1 rfl).2

theorem IsRuns.tail {r : List Char} {rs : List (List Char)} (h : IsRuns (r :: rs)) : IsRuns rs where
  ne_nil r' hr' := h.ne_nil r' (List.mem_cons_of_mem r hr')
  uniform r' hr' := h.uniform r' (List.mem_cons_of_mem r hr')
  boundary := h.boundary.tail

/-- The text goes on after a run with a character of the other class, if it goes on. -/
theorem IsRuns.outside {r : List Char} {rs : List (List Char)} (h : IsRuns (r :: rs)) :
    wordAt r.getLast? = false ∨ wordAt rs.flatten.head? = false := by
  cases rs with
  | nil => exact Or.inr rfl
  | cons r' rs =>
    have hb := (List.isChain_cons_cons.1 h.boundary).1
    rw [isBoundary, bne_iff_ne] at hb
    rw [List.flatten_cons, List.head?_append_of_ne_nil _ (h.ne_nil r' (by simp))]
    cases hr : wordAt r.getLast? with
    | false => exact Or.inl rfl
    | true => exact Or.inr (Bool.eq_false_iff.2 (hr ▸ hb.symm))

/-! ### Replacing in runs -/

/-- The new word in place of the old one, and any other text as it is. -/
def exchange (old new r : List Char) : List Char := if r = old then new else r

theorem replaceWord_nil (word new : List Char) : replaceWord word new [] = [] := by
  cases word with
  | nil => rfl
  | cons first others => rw [replaceWord, replaceWordAfter]

section

variable {word new : List Char} (hne : word ≠ []) (hword : word.all isWord = true)
include hne hword

/-- **A word is replaced in two texts each by itself** where they do not meet in a word. -/
theorem replaceWord_append {x y : List Char}
    (h : wordAt x.getLast? = false ∨ wordAt y.head? = false) :
    replaceWord word new (x ++ y) = replaceWord word new x ++ replaceWord word new y := by
  have hn {c : Char} (hc : isWord c = false) : c ∉ word := fun hm => by
    rw [List.all_eq_true.1 hword c hm] at hc
    cases hc
  rcases h with h | h
  · rcases List.eq_nil_or_concat x with rfl | ⟨x, c, rfl⟩
    · rw [replaceWord_nil, List.nil_append, List.nil_append]
    · have hc : isWord c = false := by simpa using h
      rw [List.concat_eq_append, List.append_assoc, List.singleton_append,
        replaceWord_append_cons hne hc (hn hc), replaceWord_append_cons hne hc (hn hc),
        replaceWord_nil]
      simp
  · cases y with
    | nil => rw [replaceWord_nil, List.append_nil, List.append_nil]
    | cons c y =>
      have hc : isWord c = false := h
      have hy : replaceWord word new ([] ++ c :: y) =
          replaceWord word new [] ++ c :: replaceWord word new y :=
        replaceWord_append_cons hne hc (hn hc) [] y
      rw [replaceWord_nil, List.nil_append, List.nil_append] at hy
      rw [replaceWord_append_cons hne hc (hn hc), hy]

/-- A run is replaced if it is the word, and stays otherwise. -/
theorem replaceWord_of_uniform {r : List Char} (hr : ∀ c ∈ r, ∀ d ∈ r, isWord c = isWord d) :
    replaceWord word new r = exchange word new r := by
  rw [exchange]
  split_ifs with he
  · rw [he, replaceWord_self hne, if_pos (isDelimited_of_all hne hword)]
  · refine replaceWord_eq_self hne fun hw => ?_
    -- the word has a character in the run, so all characters there are word characters
    obtain ⟨x, y, hxy, -⟩ := id hw
    obtain ⟨c, hc⟩ := List.exists_mem_of_ne_nil word hne
    have hmem : c ∈ r := by simp [hxy, hc]
    have hall : r.all isWord = true := List.all_eq_true.2 fun d hd => by
      rw [hr d hd c hmem]
      exact List.all_eq_true.1 hword c hc
    exact he (hw.eq_of_all hne hall).symm

/-- **A word is replaced run by run.** -/
theorem replaceWord_flatten {rs : List (List Char)} (h : IsRuns rs) :
    replaceWord word new rs.flatten = (rs.map (exchange word new)).flatten := by
  induction rs with
  | nil => exact replaceWord_nil word new
  | cons r rs ih =>
    rw [List.flatten_cons, replaceWord_append hne hword h.outside, ih h.tail,
      replaceWord_of_uniform hne hword (h.uniform r List.mem_cons_self), List.map_cons,
      List.flatten_cons]

theorem replaceWord_eq_flatten (s : List Char) :
    replaceWord word new s = ((runs s).map (exchange word new)).flatten := by
  rw [← replaceWord_flatten hne hword (isRuns_runs s), flatten_runs]

end

/-! ### The runs of the new text -/

section

variable {old new : List Char} {rs : List (List Char)}

/-- To exchange words that are delimited by word characters moves no word boundary. -/
theorem isBoundary_exchange (hold : IsDelimited old) (hnew : IsDelimited new) (r r' : List Char) :
    isBoundary (exchange old new r).getLast? (exchange old new r').head? =
      isBoundary r.getLast? r'.head? := by
  have hlast : wordAt (exchange old new r).getLast? = wordAt r.getLast? := by
    rw [exchange]
    split_ifs with he
    · rw [he, hold.2, hnew.2]
    · rfl
  have hhead : wordAt (exchange old new r').head? = wordAt r'.head? := by
    rw [exchange]
    split_ifs with he
    · rw [he, hold.1, hnew.1]
    · rfl
  rw [isBoundary, isBoundary, hlast, hhead]

/-- Runs stay runs: what is put in place of one is not empty, of the same class, and meets its
neighbours as before. -/
theorem IsRuns.map_exchange (h : IsRuns rs) (hold : IsDelimited old) (hne : new ≠ [])
    (hnew : new.all isWord = true) : IsRuns (rs.map (exchange old new)) := by
  have hall := List.all_eq_true.1 hnew
  have hmem {r : List Char} (hr : r ∈ rs.map (exchange old new)) : r = new ∨ r ∈ rs := by
    obtain ⟨r', hr', rfl⟩ := List.mem_map.1 hr
    rw [exchange]
    split_ifs
    · exact Or.inl rfl
    · exact Or.inr hr'
  refine ⟨fun r hr => ?_, fun r hr c hc d hd => ?_, ?_⟩
  · rcases hmem hr with rfl | hr
    · exact hne
    · exact h.ne_nil r hr
  · rcases hmem hr with rfl | hr
    · rw [hall c hc, hall d hd]
    · exact h.uniform r hr c hc d hd
  · rw [List.isChain_map]
    refine h.boundary.imp fun r r' hb => ?_
    rwa [isBoundary_exchange hold (isDelimited_of_all hne hnew)]

/-- **The runs of the new text are those of the old one**, with the new word in place of the old. -/
theorem runs_replaceWord (hne : old ≠ []) (hold : old.all isWord = true) (hne' : new ≠ [])
    (hnew : new.all isWord = true) (s : List Char) :
    runs (replaceWord old new s) = (runs s).map (exchange old new) :=
  runs_eq_iff.2 ⟨(replaceWord_eq_flatten hne hold s).symm,
    (isRuns_runs s).map_exchange (isDelimited_of_all hne hold) hne' hnew⟩

/-- Words that are exchanged are got back, if the new one was not there before. -/
theorem map_exchange_back (h : new ∉ rs) :
    (rs.map (exchange old new)).map (exchange new old) = rs := by
  rw [List.map_map]
  refine (List.map_congr_left fun r hr => ?_).trans (List.map_id rs)
  have hnew : r ≠ new := fun he => h (he ▸ hr)
  by_cases hold : r = old
  · simp [exchange, hold]
  · simp [exchange, hold, hnew]

/-- **To replace back gives the text back** if the new word was no run of it. -/
theorem replaceWord_back (hne : old ≠ []) (hold : old.all isWord = true) (hne' : new ≠ [])
    (hnew : new.all isWord = true) {s : List Char} (h : new ∉ runs s) :
    replaceWord new old (replaceWord old new s) = s := by
  rw [replaceWord_eq_flatten hne' hnew, runs_replaceWord hne hold hne' hnew, map_exchange_back h,
    flatten_runs]

end

/-! ### Names in strings -/

/-- **To rename is to exchange runs.** The text, whatever it is, is cut into its runs; those that
are the old name become the new one, and all others stay where they are, those that only hold the
old name in them too. These are all runs of the new text. So to rename back gives the text back, if
the new name was no run of it. -/
theorem rename_exchanges_runs {text old new : String} (hold : IsWordName old)
    (hnew : IsWordName new) :
    ∃ renamed, rename text old new = .ok renamed ∧
      renamed.toList = ((runs text.toList).map (exchange old.toList new.toList)).flatten ∧
      runs renamed.toList = (runs text.toList).map (exchange old.toList new.toList) ∧
      (new.toList ∉ runs text.toList → rename renamed new old = .ok text) := by
  have hne := hold.toList_ne_nil
  have hne' := hnew.toList_ne_nil
  refine ⟨_, hnew.rename_eq text old, ?_, ?_, fun hn => ?_⟩
  · rw [String.toList_ofList, replaceWord_eq_flatten hne hold.2]
  · rw [String.toList_ofList, runs_replaceWord hne hold.2 hne' hnew.2]
  · rw [hold.rename_eq, String.toList_ofList, replaceWord_back hne hold.2 hne' hnew.2 hn,
      String.ofList_toList]

/-- The name stands in the text as a run, and in two longer names. -/
def longerNames : String := "User(UserÄ a, _User b);"

/-- Only the run is renamed, and renamed back. -/
theorem rename_exchanges_runs_longerNames :
    IsWordName "User" ∧ IsWordName "User2" ∧ "User2".toList ∉ runs longerNames.toList ∧
      ∃ renamed, rename longerNames "User" "User2" = .ok renamed ∧
        renamed = "User2(UserÄ a, _User b);" ∧ rename renamed "User2" "User" = .ok longerNames := by
  have hold : IsWordName "User" := by decide
  have hnew : IsWordName "User2" := by decide
  have hn : "User2".toList ∉ runs longerNames.toList := by decide +kernel
  obtain ⟨renamed, hrename, hchars, -, hback⟩ := @rename_exchanges_runs longerNames _ _ hold hnew
  have hrenamed : ((runs longerNames.toList).map
      (exchange "User".toList "User2".toList)).flatten = "User2(UserÄ a, _User b);".toList := by
    decide +kernel
  refine ⟨hold, hnew, hn, renamed, hrename, ?_, hback hn⟩
  exact String.toList_injective (hchars.trans hrenamed)

end EntityScaffold.Text
