import Mathlib.Data.List.DropRight
import Vitals.Duration.Text
import Vitals.Proofs.Binary64.Literal

/-!
# Which texts are durations

A text counts a unit if it is a number, white space and the unit (`Duration.Counts`). Four of the
units end in the letter of a fifth, and the first one of the table that ends a text is taken. This
never takes the wrong one: what precedes the unit of a text that counts it ends in white space, in
a digit or in a point (`Duration.EndsCount`), so no longer unit ends the text
(`Duration.suffix_of_endsCount`), and a shorter one stands behind in the table
(`Duration.findSome?_units`). So the texts that are durations are those that count a unit, and
there is one way to read them (`Duration.parse_counts`).
-/

namespace Vitals

/-! ## Ends of texts -/

theorem dropEnd?_eq_some_iff {suffix text front : List Char} :
    dropEnd? suffix text = some front ↔ text = front ++ suffix := by
  unfold dropEnd?
  constructor
  · intro h
    split_ifs at h with hsuffix
    obtain ⟨before, rfl⟩ := List.isSuffixOf_iff_suffix.1 hsuffix
    rw [← Option.some.inj h]
    simp
  · rintro rfl
    rw [if_pos (List.isSuffixOf_iff_suffix.2 (List.suffix_append _ _))]
    simp

/-- Only white space is left out at the end. -/
theorem exists_trimEnd_append (text : List Char) :
    ∃ blanks, text = trimEnd text ++ blanks ∧ ∀ c ∈ blanks, isBlank c = true :=
  ⟨text.rtakeWhile isBlank, List.rdropWhile_append_rtakeWhile.symm, fun _ hc =>
    List.mem_rtakeWhile_imp hc⟩

theorem trimEnd_append {text blanks : List Char} (hblanks : ∀ c ∈ blanks, isBlank c = true)
    (hlast : ∀ c ∈ text.getLast?, isBlank c = false) : trimEnd (text ++ blanks) = text := by
  have hself : text.reverse.dropWhile isBlank = text.reverse := by
    cases hreverse : text.reverse with
    | nil => rfl
    | cons c rest =>
      have hc := hlast c (by rw [← List.head?_reverse, hreverse]; rfl)
      rw [List.dropWhile_cons_of_neg (by simp [hc])]
  unfold trimEnd
  rw [List.reverse_append, List.dropWhile_append_of_pos
    (fun c hc => hblanks c (List.mem_reverse.1 hc)), hself, List.reverse_reverse]

/-- White space around a text that neither begins nor ends in white space. -/
theorem trim_append {before text after : List Char} (hbefore : ∀ c ∈ before, isBlank c = true)
    (hafter : ∀ c ∈ after, isBlank c = true) (hne : text ≠ [])
    (hhead : ∀ c ∈ text.head?, isBlank c = false)
    (hlast : ∀ c ∈ text.getLast?, isBlank c = false) : trim (before ++ text ++ after) = text := by
  obtain ⟨c, rest, rfl⟩ := List.exists_cons_of_ne_nil hne
  have hc := hhead c rfl
  rw [trim, List.append_assoc, List.dropWhile_append_of_pos hbefore, List.cons_append,
    List.dropWhile_cons_of_neg (by simp [hc]), ← List.cons_append]
  exact trimEnd_append hafter hlast

/-- What a trimmed text begins with does not begin with white space. -/
theorem dropWhile_isBlank_of_prefix {front text : List Char} (h : front <+: trim text) :
    front.dropWhile isBlank = front := by
  cases front with
  | nil => rfl
  | cons c rest =>
    obtain ⟨more, hmore⟩ := h.trans (List.rdropWhile_prefix isBlank (text.dropWhile isBlank))
    have hhead := List.head?_dropWhile_not isBlank text
    rw [← hmore] at hhead
    exact List.dropWhile_cons_of_neg (by simpa using hhead)

/-- White space behind a literal is trimmed. -/
theorem IsLiteral.trim_append {number blanks : List Char} (h : IsLiteral number)
    (hblanks : ∀ c ∈ blanks, isBlank c = true) : trim (number ++ blanks) = number := by
  obtain ⟨last, hlast, -⟩ := h.ends
  have hne : number ≠ [] := by
    rintro rfl
    simp at hlast
  have hbefore : ∀ c ∈ ([] : List Char), isBlank c = true := by simp
  exact Vitals.trim_append hbefore hblanks hne
    (fun c hc => h.not_blank (List.mem_of_mem_head? hc))
    (fun c hc => h.not_blank (List.mem_of_mem_getLast? hc))

namespace Duration

/-! ## Units that end a text -/

/-- What precedes a unit ends in white space, in a digit or in a point. -/
def EndsCount (front : List Char) : Prop :=
  ∃ c ∈ front.getLast?, isBlank c = true ∨ c.isDigit = true ∨ c = '.'

theorem endsCount_append {number blanks : List Char} (hnumber : IsLiteral number)
    (hblanks : ∀ c ∈ blanks, isBlank c = true) : EndsCount (number ++ blanks) := by
  rcases List.eq_nil_or_concat blanks with rfl | ⟨before, c, rfl⟩
  · obtain ⟨c, hc, hend⟩ := hnumber.ends
    exact ⟨c, by rwa [List.append_nil], Or.inr hend⟩
  · refine ⟨c, ?_, Or.inl (hblanks c (by simp))⟩
    rw [List.concat_eq_append, ← List.append_assoc, List.getLast?_concat]
    rfl

/-- No unit ends one that stands behind it in the table. -/
theorem units_pairwise : units.Pairwise fun a b => ¬a.1 <:+ b.1 := by decide

/-- A unit that ends a longer one has a letter in front of it there. -/
theorem letter_of_suffix : ∀ a ∈ units, ∀ b ∈ units, a.1 <:+ b.1 → a.1 = b.1 ∨
    (b.1.take (b.1.length - a.1.length)).getLast?.any
      (fun c => !isBlank c && !c.isDigit && c != '.') = true := by decide

theorem not_blank_of_mem_units :
    ∀ a ∈ units, a.1 ≠ [] ∧ a.1.all (fun c => !isBlank c) = true := by decide

theorem unit_pos : ∀ a ∈ units, 0 < a.2 ∧ a.2 ≤ 2 ^ 53 := by decide

theorem snd_eq_of_fst_eq : ∀ a ∈ units, ∀ b ∈ units, a.1 = b.1 → a.2 = b.2 := by decide

section

variable {front ending : List Char} {unit : ℕ}

/-- Of the units that end a text, the one after a count is the longest. -/
theorem suffix_of_endsCount (hfront : EndsCount front) (hunit : (ending, unit) ∈ units)
    {other : List Char × ℕ} (hother : other ∈ units) (h : other.1 <:+ front ++ ending) :
    other.1 <:+ ending := by
  rcases List.suffix_or_suffix_of_suffix h (List.suffix_append front ending) with hle | hge
  · exact hle
  rcases letter_of_suffix _ hunit _ hother hge with heq | hletter
  · rw [← heq]
  obtain ⟨c, hc, hmarks⟩ := (Option.any_eq_true _ _).1 hletter
  -- the letter in front of the unit would have to end the count
  obtain ⟨before, hbefore⟩ := h
  obtain ⟨letters, hletters⟩ := hge
  have htake : other.1.take (other.1.length - ending.length) = letters := by
    rw [← hletters]
    simp
  have hsplit : before ++ letters = front := by
    rw [← List.append_left_inj ending, ← hbefore, ← hletters, List.append_assoc]
  rw [htake] at hc
  obtain ⟨d, hd, hend⟩ := hfront
  rw [← hsplit, List.getLast?_append, hc] at hd
  obtain rfl : c = d := by simpa using hd
  simp only [Bool.and_eq_true, Bool.not_eq_true', bne_iff_ne] at hmarks
  simp [hmarks] at hend

/-- There is one way to take a unit after a count from a text. -/
theorem eq_of_append_eq (hfront : EndsCount front) (hunit : (ending, unit) ∈ units)
    {front' ending' : List Char} {unit' : ℕ} (hfront' : EndsCount front')
    (hunit' : (ending', unit') ∈ units) (h : front ++ ending = front' ++ ending') :
    front = front' ∧ ending = ending' ∧ unit = unit' := by
  have hle : ending' <:+ ending :=
    suffix_of_endsCount hfront hunit hunit' (h ▸ List.suffix_append front' ending')
  have hge : ending <:+ ending' :=
    suffix_of_endsCount hfront' hunit' hunit (h ▸ List.suffix_append front ending)
  obtain rfl : ending = ending' :=
    hge.eq_of_length (Nat.le_antisymm hge.length_le hle.length_le)
  exact ⟨(List.append_left_inj _).1 h, rfl, snd_eq_of_fst_eq _ hunit _ hunit' rfl⟩

/-- The first unit of the table that ends a text is the one after the count. -/
theorem findSome?_units (hfront : EndsCount front) (hunit : (ending, unit) ∈ units) :
    (units.findSome? fun (ending', unit') =>
      (dropEnd? ending' (front ++ ending)).map (·, unit')) = some (front, unit) := by
  obtain ⟨before, after, hsplit⟩ := List.append_of_mem hunit
  refine List.findSome?_eq_some_iff.2 ⟨before, (ending, unit), after, hsplit, ?_, ?_⟩
  · simp [dropEnd?_eq_some_iff.2 rfl]
  · intro other hother
    have hordered := units_pairwise
    rw [hsplit, List.pairwise_append] at hordered
    have hno : dropEnd? other.1 (front ++ ending) = none := by
      by_contra hsome
      obtain ⟨front', hfront'⟩ := Option.ne_none_iff_exists'.1 hsome
      refine hordered.2.2 other hother _ List.mem_cons_self ?_
      refine suffix_of_endsCount hfront hunit (hsplit ▸ List.mem_append_left _ hother) ?_
      exact ⟨front', (dropEnd?_eq_some_iff.1 hfront').symm⟩
    simp [hno]

end

/-! ## Counts -/

/-- Without the white space around it the text is a number, white space and the unit, and the
number reads as a finite one that is not below zero. -/
structure Counts (text : String) (ending : List Char) (unit : ℕ) (count : Magnitude) : Prop where
  listed : (ending, unit) ∈ units
  split : ∃ number blanks negative, trim text.toList = number ++ blanks ++ ending ∧
    (∀ c ∈ blanks, isBlank c = true) ∧ Binary64.read number = .ok (.finite negative count) ∧
    (negative = true → count.value = 0)

/-- The whole nanoseconds of a rounded product, `longest` at most and for a product beyond the
largest finite number. -/
def wholeNanos : Option Magnitude → ℕ
  | some product => min ⌊product.value⌋₊ longest
  | none => longest

/-- A duration is a finite count that is not below zero, and has the whole nanoseconds of the
product. -/
theorem ofCount_eq_some_iff {unit : ℕ} {factor : Magnitude}
    (hfactor : Magnitude.ofNat unit = some factor) {count : Binary64} {d : Duration} :
    ofCount unit count = some d ↔
      ∃ negative x, count = .finite negative x ∧ (negative = true → x.value = 0) ∧
        d = ⟨wholeNanos (x.mul factor)⟩ := by
  cases count with
  | infinite negative => simp [ofCount]
  | undefined => simp [ofCount]
  | finite negative x =>
    have hproduct : ofCount unit (.finite negative x) =
        if negative = true ∧ x.value ≠ 0 then none else some ⟨wholeNanos (x.mul factor)⟩ := by
      have hsign : (negative && !x.isZero) = true ↔ negative = true ∧ x.value ≠ 0 := by
        rw [Bool.and_eq_true, Bool.not_eq_true', ← Bool.not_eq_true, Magnitude.isZero_iff]
      unfold ofCount
      simp only [hsign, hfactor, Option.bind_some]
      congr 1
      cases x.mul factor with
      | none => rfl
      | some product => simp [wholeNanos, Magnitude.floor_eq]
    rw [hproduct]
    constructor
    · intro h
      split_ifs at h with hsign
      exact ⟨negative, x, rfl, fun hn => not_not.1 fun hx => hsign ⟨hn, hx⟩,
        (Option.some.inj h).symm⟩
    · rintro ⟨_, _, hcount, hsign, rfl⟩
      obtain ⟨rfl, rfl⟩ := Binary64.finite.inj hcount
      exact if_neg fun h => h.2 (hsign h.1)

/-- The units are binary64 numbers. -/
theorem exists_factor {ending : List Char} {unit : ℕ} (h : (ending, unit) ∈ units) :
    ∃ factor, Magnitude.ofNat unit = some factor ∧ factor.value = unit :=
  Magnitude.exists_ofNat (unit_pos _ h).2

section

variable {text : String} {ending : List Char} {unit : ℕ} {count factor : Magnitude}

/-- A text that counts a unit is a duration. -/
theorem Counts.parse_eq (h : Counts text ending unit count)
    (hfactor : Magnitude.ofNat unit = some factor) :
    parse text = .ok ⟨wholeNanos (count.mul factor)⟩ := by
  obtain ⟨number, blanks, negative, hbody, hblanks, hread, hsign⟩ := h.split
  have hnumber := Binary64.literal_of_read hread
  unfold parse
  simp only [hbody, findSome?_units (endsCount_append hnumber hblanks) h.listed,
    hnumber.trim_append hblanks, hread,
    (ofCount_eq_some_iff hfactor).2 ⟨negative, count, rfl, hsign, rfl⟩]

/-- A text that is a duration counts a unit. -/
theorem exists_counts {d : Duration} (h : parse text = .ok d) :
    ∃ ending unit count, Counts text ending unit count := by
  unfold parse at h
  simp only at h
  split at h
  · cases h
  next number unit hfind =>
  obtain ⟨⟨ending, unit'⟩, hunit, hends⟩ := List.exists_of_findSome?_eq_some hfind
  obtain ⟨front, hfront, hpair⟩ := Option.map_eq_some_iff.1 hends
  obtain ⟨rfl, rfl⟩ := Prod.mk.inj hpair
  rw [dropEnd?_eq_some_iff] at hfront
  split at h
  · cases h
  next count hread =>
  split at h
  · next hcount =>
    obtain ⟨factor, hfactor, -⟩ := exists_factor hunit
    obtain ⟨negative, x, rfl, hsign, -⟩ := (ofCount_eq_some_iff hfactor).1 hcount
    -- the number begins the trimmed text, so that only white space at its end is left out
    have htrim : trim front = trimEnd front := by
      rw [trim, dropWhile_isBlank_of_prefix (hfront ▸ List.prefix_append front ending)]
    obtain ⟨blanks, hsplit, hblanks⟩ := exists_trimEnd_append front
    refine ⟨ending, _, x, hunit, trim front, blanks, negative, ?_, hblanks, hread, hsign⟩
    rw [hfront, htrim, ← hsplit]
  · cases h

/-- A text counts one unit, and one number of them. -/
theorem Counts.unique (h : Counts text ending unit count) {ending' : List Char} {unit' : ℕ}
    {count' : Magnitude} (h' : Counts text ending' unit' count') :
    ending = ending' ∧ unit = unit' ∧ count = count' := by
  obtain ⟨number, blanks, negative, hbody, hblanks, hread, -⟩ := h.split
  obtain ⟨number', blanks', negative', hbody', hblanks', hread', -⟩ := h'.split
  have hnumber := Binary64.literal_of_read hread
  have hnumber' := Binary64.literal_of_read hread'
  obtain ⟨hfront, rfl, rfl⟩ := eq_of_append_eq (endsCount_append hnumber hblanks) h.listed
    (endsCount_append hnumber' hblanks') h'.listed (hbody.symm.trans hbody')
  have heq : number = number' := by
    rw [← hnumber.trim_append hblanks, hfront, hnumber'.trim_append hblanks']
  rw [heq, hread'] at hread
  exact ⟨rfl, rfl, (Binary64.finite.inj (Except.ok.inj hread)).2.symm⟩

end

/-- The texts that are durations are those that count a unit. All the ways to read a text so agree
on the unit and on the number, and the duration has the whole nanoseconds of the rounded product
of both, `longest` at most. -/
theorem parse_counts (text : String) :
    ((∃ d, parse text = .ok d) ↔ ∃ ending unit count, Counts text ending unit count) ∧
      ∀ ending unit count, Counts text ending unit count →
        (∀ ending' unit' count', Counts text ending' unit' count' →
          ending' = ending ∧ unit' = unit ∧ count' = count) ∧
        ∃ factor, Magnitude.ofNat unit = some factor ∧ factor.value = unit ∧
          (∀ product ∈ count.mul factor, Magnitude.Nearest (count.value * unit) product) ∧
          (count.mul factor = none → 2 ^ (1000 : ℤ) < count.value * unit) ∧
          parse text = .ok ⟨wholeNanos (count.mul factor)⟩ := by
  refine ⟨⟨fun ⟨d, hd⟩ => exists_counts hd, fun ⟨ending, unit, count, h⟩ => ?_⟩,
    fun ending unit count h => ⟨fun ending' unit' count' h' => h'.unique h, ?_⟩⟩
  · obtain ⟨factor, hfactor, -⟩ := exists_factor h.listed
    exact ⟨_, h.parse_eq hfactor⟩
  · obtain ⟨factor, hfactor, hvalue⟩ := exists_factor h.listed
    refine ⟨factor, hfactor, hvalue, fun product hproduct => ?_, fun hnone => ?_,
      h.parse_eq hfactor⟩
    · rw [← hvalue]
      exact Magnitude.nearest_mul hproduct
    · by_contra hmax
      rw [← hvalue] at hmax
      obtain ⟨product, hproduct⟩ := Magnitude.exists_mul (le_of_not_gt hmax)
      simp [hnone] at hproduct

/-- Of the two units that end the text the longer one counts. -/
theorem parse_counts_millis :
    Counts " 1.5 ms" ['m', 's'] 1000000 ⟨6755399441055744, -52⟩ ∧
      ∃ factor, Magnitude.ofNat 1000000 = some factor ∧
        parse " 1.5 ms" = .ok ⟨wholeNanos (Magnitude.mul ⟨6755399441055744, -52⟩ factor)⟩ := by
  have hcounts : Counts " 1.5 ms" ['m', 's'] 1000000 ⟨6755399441055744, -52⟩ :=
    ⟨by decide, ['1', '.', '5'], [' '], false, by decide, List.forall_mem_singleton.2 rfl, by rfl,
      by decide⟩
  obtain ⟨factor, hfactor, -, -, -, hparse⟩ := ((parse_counts " 1.5 ms").2 _ _ _ hcounts).2
  exact ⟨hcounts, factor, hfactor, hparse⟩

end Duration

end Vitals
