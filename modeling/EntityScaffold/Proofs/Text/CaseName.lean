import Mathlib.Data.List.Chain
import EntityScaffold.Naming
import EntityScaffold.Proofs.Text.Identifier

/-!
# Names in upper and lower case

What a case mapping can do to a character is a fact about its tables (`Case.forall_map`). A run of
code points that moves into one range of letters makes letters; the few other runs are checked code
point by code point. So a name whose first character is put into upper or lower case is still an
identifier (`isIdentifier_decapitalize`), and no mapping makes a quote or a backslash
(`mem_of_mem_lower`). It may become a reserved word.
-/

namespace EntityScaffold.Text

/-- Numbers that are no code points give the first character. -/
theorem toNat_ofNat (n : Nat) :
    (Char.ofNat n).toNat = if n.isValidChar then n else 0 := by
  by_cases h : n.isValidChar
  · rw [Char.ofNat, dif_pos h, if_pos h]
    rfl
  · rw [Char.ofNat, dif_neg h, if_neg h]
    rfl

namespace Category

variable {ranges : Ranges}

/-- The ranges start one after the other. -/
def Ranges.Ascend (ranges : Ranges) : Prop := (ranges.map (·.1)).IsChain (· ≤ ·)

/-- In ranges that ascend, a code point is found in the range it lies in. -/
theorem Ranges.holds_of_mem (h : ranges.Ascend) {g : Nat × Nat} {n : Nat} (hg : g ∈ ranges)
    (hlow : g.1 ≤ n) (hhigh : n ≤ g.2) : Ranges.holds ranges n = true := by
  have hsorted := List.isChain_iff_pairwise.1 h
  clear h
  induction ranges with
  | nil => cases hg
  | cons r ranges ih =>
    obtain ⟨hfirst, hrest⟩ := List.pairwise_cons.1 hsorted
    rcases List.mem_cons.1 hg with rfl | hg
    · simp [Ranges.holds, hlow, hhigh]
    · have hbefore : r.1 ≤ n := Nat.le_trans (hfirst g.1 (List.mem_map_of_mem hg)) hlow
      simp [Ranges.holds, hbefore, ih hg hrest]

theorem ascend_letterRanges : letterRanges.Ascend := by
  unfold Ranges.Ascend
  decide +kernel

theorem of_eq_letter {g : Nat × Nat} {n : Nat} (hg : g ∈ letterRanges) (hlow : g.1 ≤ n)
    (hhigh : n ≤ g.2) : of (Char.ofNat n) = .letter := by
  have hvalid : ∀ g ∈ letterRanges, g.2 < 0xd800 ∨ 0xdfff < g.1 ∧ g.2 < 0x110000 := by
    decide +kernel
  have hn : n.isValidChar := by
    rcases hvalid g hg with h | ⟨h, h'⟩
    · exact .inl (by omega)
    · exact .inr ⟨by omega, by omega⟩
  have hcode : (Char.ofNat n).toNat = n := by rw [toNat_ofNat, if_pos hn]
  have hholds := Ranges.holds_of_mem ascend_letterRanges hg hlow hhigh
  simp [of, hcode, hholds]

end Category

namespace Case

namespace Run

variable {r : Run} {n m : Nat}

/-- The code points of a run. -/
def codes (r : Run) : List Nat :=
  (List.range ((r.last - r.first) / r.stride + 1)).map fun i => r.first + r.stride * i

/-- Where a code point of a run moves to. -/
def image (r : Run) (n : Nat) : Nat := Int.toNat (n + r.distance)

theorem mem_codes (h : r.map? n = some m) : n ∈ r.codes ∧ m = r.image n := by
  unfold map? at h
  split at h
  · rename_i hin
    simp only [Bool.and_eq_true, decide_eq_true_eq, beq_iff_eq] at hin
    obtain ⟨⟨hfirst, hlast⟩, hstride⟩ := hin
    refine ⟨List.mem_map.2 ⟨(n - r.first) / r.stride, ?_, ?_⟩, (Option.some.inj h).symm⟩
    · exact List.mem_range.2 (Nat.lt_succ_of_le (Nat.div_le_div_right (by omega)))
    · have hdiv := Nat.div_add_mod (n - r.first) r.stride
      omega
  · cases h

/-- The run moves characters that start identifiers to such characters. -/
def KeepsStarts (r : Run) : Prop :=
  ∀ n ∈ r.codes, isIdentifierStart (Char.ofNat n) = true →
    isIdentifierStart (Char.ofNat (r.image n)) = true

instance (r : Run) : Decidable r.KeepsStarts :=
  inferInstanceAs (Decidable (∀ n ∈ r.codes, isIdentifierStart (Char.ofNat n) = true →
    isIdentifierStart (Char.ofNat (r.image n)) = true))

/-- The whole run moves into one range of letters. -/
def makesLetters (r : Run) : Bool :=
  Category.letterRanges.any fun g => g.1.ble (r.image r.first) && (r.image r.last).ble g.2

/-- The code points of a run move between the images of its ends. -/
theorem image_mem (hr : r.first ≤ r.last) (hn : n ∈ r.codes) :
    r.image r.first ≤ r.image n ∧ r.image n ≤ r.image r.last := by
  obtain ⟨i, hi, rfl⟩ := List.mem_map.1 hn
  have hstep : r.stride * i ≤ r.last - r.first :=
    Nat.le_trans (Nat.mul_le_mul_left _ (Nat.le_of_lt_succ (List.mem_range.1 hi)))
      (Nat.mul_div_le _ _)
  unfold image
  omega

theorem keepsStarts_of_makesLetters (h : r.makesLetters = true) (hr : r.first ≤ r.last) :
    r.KeepsStarts := by
  intro n hn _
  obtain ⟨g, hg, hin⟩ := List.any_eq_true.1 h
  obtain ⟨hlow, hhigh⟩ := Bool.and_eq_true_iff.1 hin
  obtain ⟨hfirst, hlast⟩ := image_mem hr hn
  have hletter := Category.of_eq_letter hg (Nat.le_trans (Nat.le_of_ble_eq_true hlow) hfirst)
    (Nat.le_trans hlast (Nat.le_of_ble_eq_true hhigh))
  rw [isIdentifierStart, hletter]

end Run

variable {runs : List Run} {full : List (Nat × List Nat)} {c d : Char}

/-- **A mapping by its tables.** What holds of every entry, and of a character that stays as it is,
holds of every character. -/
theorem forall_map {P : Char → List Char → Prop}
    (hruns : ∀ r ∈ runs, ∀ n ∈ r.codes, P (Char.ofNat n) [Char.ofNat (r.image n)])
    (hfull : ∀ e ∈ full, P (Char.ofNat e.1) (e.2.map Char.ofNat)) (hsame : ∀ c, P c [c])
    (c : Char) : P c (map runs full c) := by
  unfold map
  split
  · rename_i m hfind
    obtain ⟨r, hr, hmap⟩ := List.exists_of_findSome?_eq_some hfind
    obtain ⟨hcode, rfl⟩ := Run.mem_codes hmap
    have hc := hruns r hr _ hcode
    rwa [Char.ofNat_toNat] at hc
  · split
    · rename_i ns hlookup
      obtain ⟨before, after, htable, -⟩ := List.lookup_eq_some_iff.1 hlookup
      have hc := hfull (c.toNat, ns) (htable ▸ by simp)
      rwa [Char.ofNat_toNat] at hc
    · exact hsame c

/-- Runs are checked as a whole, and code point by code point where that fails. -/
theorem keepsStarts_of_checks (hle : ∀ r ∈ runs, r.first ≤ r.last)
    (h : ∀ r ∈ runs, r.makesLetters = true ∨ r.KeepsStarts) : ∀ r ∈ runs, r.KeepsStarts :=
  fun r hr => (h r hr).elim (Run.keepsStarts_of_makesLetters · (hle r hr)) id

theorem first_le_last_upperRuns : ∀ r ∈ upperRuns, r.first ≤ r.last := by decide +kernel

theorem first_le_last_lowerRuns : ∀ r ∈ lowerRuns, r.first ≤ r.last := by decide +kernel

/-- Simple mappings make letters of letters. -/
theorem keepsStarts_upperRuns : ∀ r ∈ upperRuns, r.KeepsStarts :=
  keepsStarts_of_checks first_le_last_upperRuns (by decide +kernel)

theorem keepsStarts_lowerRuns : ∀ r ∈ lowerRuns, r.KeepsStarts :=
  keepsStarts_of_checks first_le_last_lowerRuns (by decide +kernel)

end Case

/-! ### Identifiers -/

variable {c d : Char}

/-- Upper case of a character that starts identifiers is made of parts of identifiers. -/
theorem isIdentifierPart_of_mem_upperChar (h : isIdentifierStart c = true)
    (hd : d ∈ upperChar c) : isIdentifierPart d = true := by
  have hall : isIdentifierStart c = true → ∀ d ∈ upperChar c, isIdentifierPart d = true := by
    refine Case.forall_map (P := fun c cs => isIdentifierStart c = true →
      ∀ d ∈ cs, isIdentifierPart d = true) ?_ ?_ ?_ c
    · intro r hr n hn hstart d hd
      obtain rfl := List.mem_singleton.1 hd
      exact isIdentifierPart_of_start (Case.keepsStarts_upperRuns r hr n hn hstart)
    · have hfull : ∀ e ∈ Case.upperFull, (e.2.map Char.ofNat).all isIdentifierPart = true := by
        decide +kernel
      exact fun e he _ => List.all_eq_true.1 (hfull e he)
    · intro c hstart d hd
      exact List.mem_singleton.1 hd ▸ isIdentifierPart_of_start hstart
  exact hall h d hd

/-- Lower case of a character that starts identifiers is an identifier. -/
theorem isIdentifier_lower_singleton (h : isIdentifierStart c = true) :
    isIdentifier (lower [c]) = true := by
  have hall : isIdentifierStart c = true →
      isIdentifier (Case.map Case.lowerRuns Case.lowerFull c) = true := by
    refine Case.forall_map (P := fun c cs => isIdentifierStart c = true →
      isIdentifier cs = true) ?_ ?_ ?_ c
    · intro r hr n hn hstart
      simp [isIdentifier, Case.keepsStarts_lowerRuns r hr n hn hstart]
    · have hfull : ∀ e ∈ Case.lowerFull, isIdentifier (e.2.map Char.ofNat) = true := by
        decide +kernel
      exact fun e he _ => hfull e he
    · intro c hstart
      simp [isIdentifier, hstart]
  by_cases hsigma : c = 'Σ'
  · subst hsigma
    decide
  · simpa [lower, Case.lowerAfter, hsigma] using hall h

/-! ### Quotes and backslashes -/

/-- The characters that end or escape a quoted literal. -/
def quoting : List Char := ['"', '\\']

theorem ofNat_notMem_quoting {n : Nat} (h : 0x5c < n) : Char.ofNat n ∉ quoting := by
  have hquote : ∀ c ∈ quoting, 0 < c.toNat ∧ c.toNat ≤ 0x5c := forall_mem_of_all (by decide)
  intro hmem
  obtain ⟨hpos, hle⟩ := hquote _ hmem
  rw [toNat_ofNat] at hpos hle
  split at hpos
  · rw [if_pos ‹_›] at hle
    omega
  · omega

/-- Lower case makes neither quotes nor backslashes. -/
theorem mem_of_mem_lower {s : List Char} (hc : c ∈ quoting) (h : c ∈ lower s) : c ∈ s := by
  have hmap : ∀ d, c ∈ Case.map Case.lowerRuns Case.lowerFull d → c = d := by
    refine Case.forall_map (P := fun d cs => c ∈ cs → c = d) ?_ ?_ ?_
    · intro r hr n hn hmem
      have hlow : ∀ r ∈ Case.lowerRuns, 0x5c < r.image r.first := by decide +kernel
      have himage := (Case.Run.image_mem (Case.first_le_last_lowerRuns r hr) hn).1
      obtain rfl := List.mem_singleton.1 hmem
      exact absurd hc (ofNat_notMem_quoting (Nat.lt_of_lt_of_le (hlow r hr) himage))
    · have hfull : ∀ c ∈ quoting, ∀ e ∈ Case.lowerFull, c ∉ e.2.map Char.ofNat :=
        forall_mem_of_all (by decide)
      exact fun e he hmem => absurd hmem (hfull c hc e he)
    · exact fun d hmem => List.mem_singleton.1 hmem
  -- a sigma at the end of a word is lowered apart from the table
  have hsigma : c ∉ ['σ', 'ς'] := by
    have hquote : ∀ c ∈ quoting, c ∉ ['σ', 'ς'] := forall_mem_of_all (by decide)
    exact hquote c hc
  have hafter : ∀ before (s : List Char), c ∈ Case.lowerAfter before s → c ∈ s := by
    intro before s hmem
    induction s generalizing before with
    | nil => exact hmem
    | cons d rest ih =>
      rw [Case.lowerAfter, List.mem_append] at hmem
      rcases hmem with hmem | hmem
      · split at hmem
        · refine absurd (List.mem_singleton.1 hmem) fun heq => hsigma ?_
          split at heq <;> simp [heq]
        · exact List.mem_cons.2 (.inl (hmap d hmem))
      · exact List.mem_cons_of_mem _ (ih _ hmem)
  exact hafter [] s h

end EntityScaffold.Text

namespace EntityScaffold.Naming

open Text

variable {name : String}

/-- **A name that starts in lower case is an identifier.** -/
theorem isIdentifier_decapitalize (h : isIdentifier name.toList = true) :
    isIdentifier (decapitalize name).toList = true := by
  unfold decapitalize
  split
  · exact h
  · rename_i c rest hname
    rw [hname] at h
    obtain ⟨hstart, hrest⟩ := Bool.and_eq_true_iff.1 h
    rw [String.toList_ofList]
    exact isIdentifier_append (isIdentifier_lower_singleton hstart) (List.all_eq_true.1 hrest)

/-- Behind another name, a name may start in upper case. -/
theorem isIdentifierPart_of_mem_capitalize (h : isIdentifier name.toList = true) {c : Char}
    (hc : c ∈ (capitalize name).toList) : isIdentifierPart c = true := by
  unfold capitalize at hc
  split at hc
  · exact isIdentifierPart_of_mem h hc
  · rename_i d rest hname
    rw [hname] at h
    obtain ⟨hstart, hrest⟩ := Bool.and_eq_true_iff.1 h
    rw [String.toList_ofList, List.mem_append] at hc
    rcases hc with hc | hc
    · exact isIdentifierPart_of_mem_upperChar hstart hc
    · exact List.all_eq_true.1 hrest c hc

/-- The route of a name has quotes and backslashes only if the name has. -/
theorem mem_of_mem_route {c : Char} (hc : c ∈ quoting) (h : c ∈ (route name).toList) :
    c ∈ name.toList := by
  have hletters : c ∉ ['s', 'e', 'i'] := by
    have hquote : ∀ c ∈ quoting, c ∉ ['s', 'e', 'i'] := forall_mem_of_all (by decide)
    exact hquote c hc
  simp only [List.mem_cons, List.not_mem_nil, or_false, not_or] at hletters
  have hplural : c ∈ (plural name).toList := by
    rw [route, toLower, String.toList_ofList] at h
    exact mem_of_mem_lower hc h
  unfold plural at hplural
  split at hplural
  · rename_i d rest hname
    split at hplural
    · simpa [hletters] using hplural
    · have hmem : c ∈ d :: rest := by simpa [hletters, or_comm] using hplural
      exact List.mem_reverse.1 (hname ▸ List.mem_cons_of_mem _ hmem)
  · simpa [hletters] using hplural
  · simpa [hletters] using hplural

end EntityScaffold.Naming
