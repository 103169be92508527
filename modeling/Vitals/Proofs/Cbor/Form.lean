import Vitals.Cbor.Form
import Vitals.Proofs.Cbor.Head

/-!
# Faithful forms

A form is faithful if it takes the bytes that it writes for a value for that value, whatever
follows them, and says of a part of them that it ends too early (`Form.Faithful`). Numbers, truth
values and texts are faithful, and so are lists of what is faithful (`faithful_list`), values that
may be lacking (`faithful_option`) and records (`faithful_record`), since each of them is a head
and then its parts. The number in a head is below `2 ^ 64`, so a value has to be written in fewer
bytes than that.
-/

namespace Vitals.Cbor

namespace Form

variable {α : Type}

/-- The form takes what it writes for a value for that value. -/
structure Faithful (form : Form α) : Prop where
  encode_ne_nil (x : α) : form.encode x ≠ []
  takes (x : α) (h : (form.encode x).length < UInt64.size) : Takes form.decode (form.encode x) x

/-! ## Scalars -/

theorem head_ne_nil (kind n : Nat) : head kind n ≠ [] := by
  unfold head
  split_ifs <;> simp

theorem faithful_uint64 : uint64.Faithful where
  encode_ne_nil n := head_ne_nil 0 n.toNat
  takes n _ := by
    obtain ⟨b, bytes, hhead, hkind, -, hnumber⟩ := exists_head 0 (by decide) n.toNat_lt
    rw [show uint64.encode n = b :: bytes from hhead]
    refine Takes.cons rfl ?_
    simpa [uint64, hkind] using hnumber.map UInt64.ofNat

/-- What the head of a signed number says. The number in it is below `2 ^ 63` on both sides of
zero. -/
theorem encode_int64 (n : Int64) : ∃ kind magnitude, kind ≤ 1 ∧
    magnitude < 9223372036854775808 ∧ int64.encode n = head kind magnitude ∧
    Int64.ofInt (if kind = 0 then (magnitude : Int) else -1 - (magnitude : Int)) = n := by
  have hlow := n.le_toInt
  have hhigh := n.toInt_lt
  by_cases hneg : n < 0
  · have hsign : n.toInt < 0 := Int64.lt_iff_toInt_lt.1 hneg
    refine ⟨1, (-1 - n.toInt).toNat, by omega, by omega, if_pos hneg, ?_⟩
    have hvalue : -1 - ((-1 - n.toInt).toNat : Int) = n.toInt := by omega
    rw [if_neg Nat.one_ne_zero, hvalue, Int64.ofInt_toInt]
  · have hsign : 0 ≤ n.toInt := by
      by_contra hlt
      exact hneg (Int64.lt_iff_toInt_lt.2 (by simpa using hlt))
    refine ⟨0, n.toInt.toNat, by omega, by omega, if_neg hneg, ?_⟩
    have hvalue : (n.toInt.toNat : Int) = n.toInt := Int.toNat_of_nonneg hsign
    rw [if_pos rfl, hvalue, Int64.ofInt_toInt]

theorem faithful_int64 : int64.Faithful where
  encode_ne_nil n := by
    obtain ⟨kind, magnitude, -, -, hencode, -⟩ := encode_int64 n
    rw [hencode]
    exact head_ne_nil kind magnitude
  takes n _ := by
    obtain ⟨kind, magnitude, hkind, hmagnitude, hencode, hvalue⟩ := encode_int64 n
    obtain ⟨b, bytes, hhead, hkindOf, -, hnumber⟩ :=
      exists_head kind (by omega) (Nat.lt_trans hmagnitude (by decide))
    rw [hencode, hhead]
    refine Takes.cons rfl ⟨fun rest => ?_, fun hstart => ?_⟩
    · simp [int64, hkindOf, hkind, hnumber.whole, hmagnitude, hvalue]
    · simp [int64, hkindOf, hkind, hnumber.part hstart]

theorem faithful_bool : bool.Faithful where
  encode_ne_nil b := by simp [bool]
  takes b _ := by
    have htakes : Takes (fun s => bool.decode ((if b then 0xf5 else 0xf4) :: s)) [] b := by
      cases b <;> exact Takes.nothing _
    exact Takes.cons rfl htakes

theorem faithful_string : string.Faithful where
  encode_ne_nil s := by simp [string, head_ne_nil]
  takes s h := by
    have hlength : (Utf8.encode s).length < UInt64.size := by
      simp only [string, List.length_append] at h
      omega
    obtain ⟨b, bytes, hhead, hkind, -, hnumber⟩ := exists_head 3 (by decide) hlength
    have hbody := takes_takeBytes (Utf8.encode s)
    have hencode : string.encode s = b :: (bytes ++ Utf8.encode s) := by simp [string, hhead]
    rw [hencode]
    refine Takes.cons rfl ⟨fun rest => ?_, fun hstart => ?_⟩
    · simp [string, hkind, hnumber.whole, hbody.whole, Utf8.decode?_encode]
    · rcases hstart.append with hlength | ⟨start, rfl, hrest⟩
      · simp [string, hkind, hnumber.part hlength]
      · simp [string, hkind, hnumber.whole, hbody.part hrest]

/-! ## Values that may be lacking -/

/-- What does not begin with the sign that there is no value is a value. -/
theorem decode_option {form : Form α} {s : List UInt8} (hnil : s ≠ [])
    (hsign : s.head? ≠ some 0xf6) :
    form.option.decode s = (form.decode s).map fun (x, s) => (some x, s) := by
  cases s with
  | nil => exact absurd rfl hnil
  | cons b s => exact if_neg fun hb => hsign (congrArg some hb)

theorem faithful_option {form : Form α} (hform : form.Faithful)
    (hsign : ∀ x, (form.encode x).head? ≠ some 0xf6) : form.option.Faithful where
  encode_ne_nil
    | none => by simp [option]
    | some x => hform.encode_ne_nil x
  takes
    | none, _ => Takes.cons rfl (Takes.nothing none)
    | some x, h => by
      have htakes := (hform.takes x h).map some
      have hencode := hform.encode_ne_nil x
      refine ⟨fun rest => ?_, fun {start} hstart => ?_⟩
      · rw [← htakes.whole rest]
        refine decode_option (by simp [option, hencode]) ?_
        rw [show form.option.encode (some x) = form.encode x from rfl,
          List.head?_append_of_ne_nil _ hencode]
        exact hsign x
      · by_cases hnil : start = []
        · rw [hnil]
          rfl
        · obtain ⟨more, hmore⟩ := hstart.1
          rw [← htakes.part hstart]
          refine decode_option hnil ?_
          rw [← List.head?_append_of_ne_nil start hnil, hmore]
          exact hsign x

/-! ## Lists -/

theorem takes_readListHead {n : Nat} (hn : n < UInt64.size) :
    Takes readListHead (head 4 n) (some n) := by
  obtain ⟨b, bytes, hhead, hkind, hinfo, hnumber⟩ := exists_head 4 (by decide) hn
  have hclosed : infoOf b ≠ 31 := by omega
  rw [hhead]
  refine Takes.cons rfl ?_
  simpa [readListHead, hkind, hclosed] using hnumber.map some

/-- Every item takes a byte at least. -/
theorem length_le_flatMap {form : Form α} (hform : form.Faithful) (xs : List α) :
    xs.length ≤ (xs.flatMap form.encode).length := by
  induction xs with
  | nil => rfl
  | cons x xs ih =>
    have hx := List.length_pos_iff.2 (hform.encode_ne_nil x)
    simp only [List.flatMap_cons, List.length_append, List.length_cons]
    omega

/-- As many steps as there are items read them all. -/
theorem decodeItems_whole {form : Form α} (hform : form.Faithful) {xs : List α}
    (h : (xs.flatMap form.encode).length < UInt64.size) {fuel : Nat} (hfuel : xs.length ≤ fuel)
    (rest : List UInt8) :
    form.decodeItems fuel (some xs.length) (xs.flatMap form.encode ++ rest) = .ok (xs, rest) := by
  induction xs generalizing fuel with
  | nil => cases fuel <;> rfl
  | cons x xs ih =>
    rw [List.flatMap_cons, List.length_append] at h
    have hx := (hform.takes x (by omega)).whole (xs.flatMap form.encode ++ rest)
    cases fuel with
    | zero => simp at hfuel
    | succ fuel =>
      have hxs := ih (by omega) (Nat.le_of_succ_le_succ hfuel)
      rw [List.flatMap_cons, List.append_assoc]
      unfold decodeItems
      simp [listEnd?, hx, hxs, Except.map]

/-- Items that break off do so however many steps there are. -/
theorem decodeItems_part {form : Form α} (hform : form.Faithful) {xs : List α}
    (h : (xs.flatMap form.encode).length < UInt64.size) (fuel : Nat) {start : List UInt8}
    (hstart : BreaksOff start (xs.flatMap form.encode)) :
    form.decodeItems fuel (some xs.length) start = .error .endOfInput := by
  induction xs generalizing fuel start with
  | nil => exact absurd hstart (not_breaksOff_nil _)
  | cons x xs ih =>
    rw [List.flatMap_cons, List.length_append] at h
    rw [List.flatMap_cons] at hstart
    have hx := hform.takes x (by omega)
    rcases hstart.append with hpart | ⟨start, rfl, hrest⟩
    · simp [decodeItems, listEnd?, hx.part hpart]
    · cases fuel with
      | zero => simp [decodeItems, listEnd?, hx.whole]
      | succ fuel =>
        have hxs := ih (by omega) fuel hrest
        unfold decodeItems
        simp [listEnd?, hx.whole, hxs, Except.map]

/-- The items are read as many as there are, with a step for each byte at least. -/
theorem takes_decodeItems {form : Form α} (hform : form.Faithful) {xs : List α}
    (h : (xs.flatMap form.encode).length < UInt64.size) :
    Takes (fun s => form.decodeItems s.length (some xs.length) s) (xs.flatMap form.encode) xs where
  whole rest := by
    have hcount := length_le_flatMap hform xs
    refine decodeItems_whole hform h ?_ rest
    rw [List.length_append]
    omega
  part hstart := decodeItems_part hform h _ hstart

theorem faithful_list {form : Form α} (hform : form.Faithful) : form.list.Faithful where
  encode_ne_nil xs := by simp [list, head_ne_nil]
  takes xs h := by
    simp only [list, List.length_append] at h
    have hcount := length_le_flatMap hform xs
    have hhead := takes_readListHead (show xs.length < UInt64.size by omega)
    have hitems := takes_decodeItems hform (show (xs.flatMap form.encode).length < _ by omega)
    exact hhead.append hitems (fun hread => by simp [list, hread])
      fun hread => by simp [list, hread]

end Form

/-! ## Records -/

namespace Fields

/-- The form of every field is faithful. -/
def Faithful : {τ : Type} → Fields τ → Prop
  | _, nil => True
  | _, cons form _ others => form.Faithful ∧ others.Faithful

/-- The fields are read out of a list of as many items. -/
theorem takes_decode {τ : Type} {fields : Fields τ} (hfields : fields.Faithful) (values : τ)
    (h : (fields.encode values).length < UInt64.size) :
    Takes (fields.decode (some fields.count)) (fields.encode values) values := by
  induction fields with
  | nil => exact ⟨fun rest => by cases rest <;> rfl, fun h => absurd h (not_breaksOff_nil _)⟩
  | cons form absent others ih =>
    obtain ⟨x, values⟩ := values
    obtain ⟨hform, hothers⟩ := hfields
    simp only [encode, List.length_append] at h
    have hx := hform.takes x (by omega)
    have hvalues := ih hothers values (by omega)
    refine hx.append (hvalues.map (x, ·)) (fun hread => ?_) fun hread => ?_
    · simp [decode, count, Form.listEnd?, hread]
    · simp [decode, count, Form.listEnd?, hread]

end Fields

/-- A record is the head of a list and then its fields. -/
theorem Form.faithful_record {α τ : Type} {fields : Fields τ} {ofFields : τ → α}
    {toFields : α → τ} (hcount : fields.count < UInt64.size) (hfields : fields.Faithful)
    (hinverse : ∀ x, ofFields (toFields x) = x) :
    (Form.record fields ofFields toFields).Faithful where
  encode_ne_nil x := by simp [record, head_ne_nil]
  takes x h := by
    simp only [record, List.length_append] at h
    have hhead := takes_readListHead hcount
    have hvalues := Fields.takes_decode hfields (toFields x) (by omega)
    have hfields := hvalues.map ofFields
    rw [hinverse] at hfields
    exact hhead.append hfields (fun hread => by simp [record, hread])
      fun hread => by simp [record, hread]

end Vitals.Cbor
