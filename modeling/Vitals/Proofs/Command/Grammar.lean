import Mathlib.Data.List.Nodup
import Mathlib.Data.List.TakeWhile
import Vitals.Command.Grammar

/-!
# Flags as they are read

A flag with a value is written by its name or its letter, with the value in the same word or in the
next (`Flag.Opens`, `Flag.Spelled`). A reader who knows the flags takes in the words of one after
those of another (`Grammar.Readable.reads_written_iff`), so that several flags are a level exactly
if no flag is repeated, every value has the form of its flag, no value that stands apart looks like
a flag, and the level neither excludes one of the flags nor needs another (`Grammar.Admits`,
`Grammar.Readable.level_iff`).
-/

namespace Vitals.Command

/-! ## Ways of writing a flag -/

/-- A word begins a flag, with the value in it or without. Behind a letter the value may stand at
once, unless an equals sign comes first, which is left out. -/
inductive Flag.Opens (flag : Flag) : Option String → String → Prop
  | name : flag.Opens none ("--" ++ flag.name)
  | nameWith (value : String) : flag.Opens (some value) ("--" ++ flag.name ++ "=" ++ value)
  | letter {letter : Char} (hletter : flag.letter = some letter) :
    flag.Opens none ("-".push letter)
  | letterWith {letter : Char} (hletter : flag.letter = some letter) (value : String) :
    flag.Opens (some value) ("-".push letter ++ "=" ++ value)
  | letterJoined {letter c : Char} {rest : List Char} (hletter : flag.letter = some letter)
    {value : String} (hvalue : value.toList = c :: rest) (hc : c ≠ '=') :
    flag.Opens (some value) ("-".push letter ++ value)

/-- Words that write a flag with a value. -/
inductive Flag.Spelled (flag : Flag) (value : String) : List String → Prop
  | joined {word : String} (h : flag.Opens (some value) word) : flag.Spelled value [word]
  | apart {word : String} (h : flag.Opens none word) : flag.Spelled value [word, value]

/-- One of some flags with a value and the words that write it. -/
structure Written (flags : List Flag) where
  flag : Flag
  value : String
  words : List String
  mem : flag ∈ flags
  spelled : flag.Spelled value words

namespace Written

variable {flags : List Flag} (written : Written flags)

/-- What stands apart from the flag does not look like a flag. -/
def Legible : Prop := ∀ word ∈ written.words.tail, Grammar.classify word = .plain

/-- The value has the form of the flag. -/
def Checked : Prop := ∀ form, written.flag.role = .value form → form.check written.value = .ok ()

/-- The flag with its value. -/
def entry : String × String := (written.flag.name, written.value)

end Written

/-! ## Taking in values -/

namespace Reading

variable {reading next : Reading} {flag : Flag} {form : Form} {value : String}

theorem has_iff {name : String} : reading.has name = true ↔ name ∈ reading.given.map Prod.fst := by
  simp [has, value?]

/-- A value is accepted once for each flag, and only in the form that the flag has. -/
theorem accept_eq_ok_iff (hform : flag.role = .value form) :
    reading.accept flag value = .ok next ↔
      flag.name ∉ reading.given.map Prod.fst ∧ form.check value = .ok () ∧
        next = { reading with given := reading.given ++ [(flag.name, value)] } := by
  unfold accept
  by_cases hhas : reading.has flag.name
  · simp [hhas, has_iff.1 hhas]
  · have hnew := mt has_iff.2 hhas
    simp only [hhas, hform, hnew, Bool.false_eq_true, if_false, not_false_eq_true, true_and]
    cases form.check value <;> simp [Except.map, eq_comm]

theorem pending_of_accept (h : reading.accept flag value = .ok next) :
    next.pending = reading.pending := by
  unfold accept at h
  split at h
  · cases h
  · split at h
    · cases hcheck : Form.check _ value with
      | error fault =>
        rw [hcheck] at h
        cases h
      | ok _ =>
        rw [hcheck] at h
        cases h
        rfl
    · cases h
      rfl
    · cases h

theorem pending_of_resolve (h : reading.resolve = .ok next) : next.pending = none := by
  unfold resolve at h
  split at h
  · cases h
    assumption
  · cases h
  · exact pending_of_accept h

/-- Where no flag waits for its value there is nothing to resolve. -/
theorem resolve_of_settled (h : reading.pending = none) : reading.resolve = .ok reading := by
  simp [resolve, h]

variable {flags : List Flag}

/-- Takes in a written flag ; a value that stands apart is left to be taken in later. -/
def takeIn (reading : Reading) (written : Written flags) : Except UsageFault Reading := do
  let reading ← reading.resolve
  if written.words.tail = [] then reading.accept written.flag written.value
  else return { reading with pending := some (written.flag, some written.value) }

theorem awaits_of_takeIn {written : Written flags} (h : reading.takeIn written = .ok next) :
    next.awaits = false := by
  unfold takeIn at h
  cases hresolve : reading.resolve with
  | error fault => simp [hresolve, bind, Except.bind] at h
  | ok settled =>
    simp only [hresolve, bind, Except.bind] at h
    split_ifs at h
    · have hpending := (pending_of_accept h).trans (pending_of_resolve hresolve)
      simp [awaits, hpending]
    · cases h
      rfl

/-- However it is written, the flag is accepted with its value in the end. -/
theorem takeIn_resolve (reading : Reading) (written : Written flags) :
    (reading.takeIn written >>= resolve) =
      reading.resolve >>= (·.accept written.flag written.value) := by
  unfold takeIn
  rw [bind_assoc]
  cases hresolve : reading.resolve with
  | error fault => rfl
  | ok settled =>
    have hpending := pending_of_resolve hresolve
    change (if written.words.tail = [] then _ else _ : Except UsageFault Reading) >>= resolve =
      settled.accept written.flag written.value
    split_ifs
    · cases haccept : settled.accept written.flag written.value with
      | error fault => rfl
      | ok next =>
        exact resolve_of_settled ((pending_of_accept haccept).trans hpending)
    · change ({ settled with pending := none } : Reading).accept _ _ = _
      rw [← hpending]

end Reading

/-! ## Words -/

namespace Grammar

/-- A level has some flags, which have values and can be told from other words. -/
structure Readable (grammar : Grammar) (flags : List Flag) : Prop where
  named : ∀ flag ∈ flags, grammar.named? flag.name = some flag
  lettered : ∀ flag ∈ flags, ∀ letter, flag.letter = some letter →
    grammar.lettered? letter = some flag ∧ letter ≠ '-'
  valued : ∀ flag ∈ flags, ∃ form, flag.role = .value form
  significant : ∀ flag ∈ flags, flag.name.toList ≠ [] ∧ '=' ∉ flag.name.toList
  dashed : ∀ word ∈ "help" :: grammar.subcommands, word.toList.head? ≠ some '-'

namespace Readable

variable {grammar : Grammar} {flags : List Flag} {flag : Flag} {reading : Reading}

theorem isSubcommand_eq_false (hg : grammar.Readable flags) {word : String} {text : List Char}
    (h : word.toList = '-' :: text) : grammar.isSubcommand word = false := by
  have hother : word ∉ "help" :: grammar.subcommands := fun hmem =>
    hg.dashed word hmem (by rw [h]; rfl)
  simp only [List.mem_cons, not_or] at hother
  simp [isSubcommand, hother.1, hother.2]

theorem ne_equals (hg : grammar.Readable flags) (hmem : flag ∈ flags) :
    ∀ c ∈ flag.name.toList, decide (c ≠ '=') = true := by
  intro c hc
  simpa using ne_of_mem_of_not_mem hc (hg.significant flag hmem).2

/-- The name of a flag begins the flag. -/
theorem readNamed_name (hg : grammar.Readable flags) (hmem : flag ∈ flags) :
    grammar.readNamed reading flag.name.toList = reading.begin flag none := by
  obtain ⟨form, hform⟩ := hg.valued flag hmem
  have hinside := hg.ne_equals hmem
  unfold readNamed
  rw [List.takeWhile_eq_self_iff.2 hinside, List.dropWhile_eq_nil_iff.2 hinside,
    String.ofList_toList]
  simp only [hg.named flag hmem, hform]

/-- A name with a value behind it begins the flag with this value. -/
theorem readNamed_nameWith (hg : grammar.Readable flags) (hmem : flag ∈ flags) (value : String) :
    grammar.readNamed reading (flag.name.toList ++ '=' :: value.toList) =
      reading.begin flag (some value) := by
  obtain ⟨form, hform⟩ := hg.valued flag hmem
  have hinside := hg.ne_equals hmem
  unfold readNamed
  rw [List.takeWhile_append_of_pos hinside, List.dropWhile_append_of_pos hinside]
  simp [String.ofList_toList, hg.named flag hmem, hform]

/-- The letter of a flag begins the flag. -/
theorem readLettered_letter (hg : grammar.Readable flags) (hmem : flag ∈ flags) {letter : Char}
    (hletter : flag.letter = some letter) :
    grammar.readLettered reading [letter] = reading.begin flag none := by
  obtain ⟨form, hform⟩ := hg.valued flag hmem
  simp only [readLettered, (hg.lettered flag hmem letter hletter).1, hform]

theorem readLettered_letterWith (hg : grammar.Readable flags) (hmem : flag ∈ flags) {letter : Char}
    (hletter : flag.letter = some letter) (value : String) :
    grammar.readLettered reading (letter :: '=' :: value.toList) =
      reading.begin flag (some value) := by
  obtain ⟨form, hform⟩ := hg.valued flag hmem
  simp only [readLettered, (hg.lettered flag hmem letter hletter).1, hform, String.ofList_toList]

/-- A letter with a value joined to it begins the flag with this value. -/
theorem readLettered_letterJoined (hg : grammar.Readable flags) (hmem : flag ∈ flags)
    {letter c : Char} {text : List Char} (hletter : flag.letter = some letter) {value : String}
    (hvalue : value.toList = c :: text) (hc : c ≠ '=') :
    grammar.readLettered reading (letter :: value.toList) = reading.begin flag (some value) := by
  obtain ⟨form, hform⟩ := hg.valued flag hmem
  have hjoined : String.ofList (c :: text) = value := by rw [← hvalue, String.ofList_toList]
  rw [hvalue]
  simp [readLettered, (hg.lettered flag hmem letter hletter).1, hform, hc, hjoined]

/-- A word with two dashes is read as a name. -/
theorem readWords_named (hg : grammar.Readable flags) {word : String} {text : List Char}
    (hword : word.toList = '-' :: '-' :: text) (htext : text ≠ []) (rest : List String) :
    grammar.readWords false reading (word :: rest) =
      (grammar.readNamed reading text).bind (grammar.readWords false · rest) := by
  have hclass : classify word = .named text := by
    obtain ⟨c, more, rfl⟩ := List.exists_cons_of_ne_nil htext
    simp [classify, hword]
  rw [readWords]
  simp only [Bool.false_eq_true, if_false, hg.isSubcommand_eq_false hword, Bool.and_false, hclass]
  cases grammar.readNamed reading text <;> rfl

/-- A word with one dash is read as letters. -/
theorem readWords_lettered (hg : grammar.Readable flags) {word : String} {letter : Char}
    {text : List Char} (hword : word.toList = '-' :: letter :: text) (hletter : letter ≠ '-')
    (rest : List String) :
    grammar.readWords false reading (word :: rest) =
      (grammar.readLettered reading (letter :: text)).bind (grammar.readWords false · rest) := by
  have hclass : classify word = .lettered (letter :: text) := by
    simp [classify, hword, hletter]
  rw [readWords]
  simp only [Bool.false_eq_true, if_false, hg.isSubcommand_eq_false hword, Bool.and_false, hclass]
  cases grammar.readLettered reading (letter :: text) <;> rfl

/-- A word that begins a flag begins it, whatever has been read before. -/
theorem readWords_opens (hg : grammar.Readable flags) (hmem : flag ∈ flags)
    {attached : Option String} {word : String} (hopens : flag.Opens attached word)
    (rest : List String) :
    grammar.readWords false reading (word :: rest) =
      (reading.begin flag attached).bind (grammar.readWords false · rest) := by
  have hname := (hg.significant flag hmem).1
  cases hopens with
  | name =>
    have hword : ("--" ++ flag.name).toList = '-' :: '-' :: flag.name.toList := by simp
    rw [hg.readWords_named hword hname, hg.readNamed_name hmem]
  | nameWith value =>
    have hword : ("--" ++ flag.name ++ "=" ++ value).toList =
        '-' :: '-' :: (flag.name.toList ++ '=' :: value.toList) := by simp
    rw [hg.readWords_named hword (by simp), hg.readNamed_nameWith hmem]
  | @letter letter hletter =>
    have hword : ("-".push letter).toList = ['-', letter] := by simp
    have hdash := (hg.lettered flag hmem letter hletter).2
    rw [hg.readWords_lettered hword hdash, hg.readLettered_letter hmem hletter]
  | @letterWith letter hletter value =>
    have hword : ("-".push letter ++ "=" ++ value).toList =
        '-' :: letter :: '=' :: value.toList := by simp
    have hdash := (hg.lettered flag hmem letter hletter).2
    rw [hg.readWords_lettered hword hdash, hg.readLettered_letterWith hmem hletter]
  | @letterJoined letter c text hletter value hvalue hc =>
    have hword : ("-".push letter ++ value).toList = '-' :: letter :: value.toList := by simp
    have hdash := (hg.lettered flag hmem letter hletter).2
    rw [hg.readWords_lettered hword hdash, hg.readLettered_letterJoined hmem hletter hvalue hc]

end Readable

/-! ## Values that stand apart -/

section

variable {grammar : Grammar} {flag : Flag} {reading : Reading}

/-- Where a value is awaited no flag begins. -/
theorem readNamed_of_awaits (hpending : reading.pending = some (flag, none)) (text : List Char) :
    ∃ fault, grammar.readNamed reading text = .error fault := by
  have hresolve : reading.resolve = .error .invalidValue := by
    simp [Reading.resolve, hpending]
  unfold readNamed
  dsimp only
  cases grammar.named? (String.ofList (text.takeWhile (· ≠ '='))) with
  | none => exact ⟨_, rfl⟩
  | some other =>
    simp only [Reading.begin, hresolve, bind, Except.bind]
    split
    · exact ⟨_, rfl⟩
    · split_ifs <;> exact ⟨_, rfl⟩

/-- A flag that waits for its value takes no other flag for it. -/
theorem readLettered_of_awaits (hpending : reading.pending = some (flag, none)) (letter : Char)
    (letters : List Char) :
    ∃ fault, grammar.readLettered reading (letter :: letters) = .error fault := by
  have hresolve : reading.resolve = .error .invalidValue := by
    simp [Reading.resolve, hpending]
  unfold readLettered
  cases grammar.lettered? letter with
  | none => exact ⟨_, rfl⟩
  | some other =>
    simp only [Reading.begin, hresolve, bind, Except.bind]
    split <;> exact ⟨_, rfl⟩

theorem exists_cons_of_classify {word : String} {letters : List Char}
    (h : classify word = .lettered letters) : ∃ letter more, letters = letter :: more := by
  unfold classify at h
  split at h
  · cases h
  · cases h
  · cases h
    exact ⟨_, _, rfl⟩
  · cases h

/-- The words are read, and what has been read last is taken in. -/
def Reads (grammar : Grammar) (reading : Reading) (words : List String) (settled : Reading)
    (next : Option (String × List String)) : Prop :=
  ∃ last, grammar.readWords false reading words = .ok (last, next) ∧ last.resolve = .ok settled

theorem reads_value_iff (hpending : reading.pending = some (flag, none)) {value : String}
    {rest : List String} {settled : Reading} {next : Option (String × List String)} :
    grammar.Reads reading (value :: rest) settled next ↔ classify value = .plain ∧
      grammar.Reads { reading with pending := some (flag, some value) } rest settled next := by
  have hawaits : reading.awaits = true := by simp [Reading.awaits, hpending]
  unfold Reads
  rw [readWords]
  simp only [Bool.false_eq_true, if_false, hawaits, Bool.not_true, Bool.false_and]
  cases hclass : classify value with
  | escape =>
    cases rest with
    | nil => simp [readWords, Reading.resolve, hpending]
    | cons word rest => simp [readWords]
  | named text =>
    obtain ⟨fault, hfault⟩ : ∃ fault, grammar.readNamed reading text = .error fault :=
      readNamed_of_awaits hpending text
    simp [hfault]
  | lettered letters =>
    obtain ⟨letter, letters, rfl⟩ := exists_cons_of_classify hclass
    obtain ⟨fault, hfault⟩ : ∃ fault, grammar.readLettered reading (letter :: letters) =
        .error fault := readLettered_of_awaits hpending letter letters
    simp [hfault]
  | plain => simp [hpending]

end

/-! ## Several flags -/

namespace Readable

variable {grammar : Grammar} {flags : List Flag} {reading settled : Reading}
  {next : Option (String × List String)}

/-- A word that begins a flag begins it, and what follows is read on. -/
theorem reads_opens_iff (hg : grammar.Readable flags) {flag : Flag} (hmem : flag ∈ flags)
    {attached : Option String} {word : String} (hopens : flag.Opens attached word)
    {rest : List String} :
    grammar.Reads reading (word :: rest) settled next ↔
      ∃ middle, reading.begin flag attached = .ok middle ∧
        grammar.Reads middle rest settled next := by
  simp only [Reads, hg.readWords_opens hmem hopens]
  cases reading.begin flag attached <;> simp [Except.bind]

theorem reads_written_iff (hg : grammar.Readable flags) (written : Written flags)
    {rest : List String} :
    grammar.Reads reading (written.words ++ rest) settled next ↔ written.Legible ∧
      ∃ middle, reading.takeIn written = .ok middle ∧
        grammar.Reads middle rest settled next := by
  obtain ⟨flag, value, words, hmem, hspelled⟩ := written
  cases hspelled with
  | joined hopens =>
    rw [List.singleton_append, hg.reads_opens_iff hmem hopens]
    simp [Written.Legible, Reading.takeIn, Reading.begin]
  | apart hopens =>
    rw [List.cons_append, List.singleton_append, hg.reads_opens_iff hmem hopens]
    simp only [Written.Legible, Reading.takeIn, Reading.begin, List.tail_cons,
      List.forall_mem_singleton, reduceCtorEq, if_false]
    cases reading.resolve with
    | error fault => simp [bind, Except.bind]
    | ok taken => simp [bind, Except.bind, pure, Except.pure, reads_value_iff]

/-- The words of some written flags, behind which a level ends, are read exactly if all values
that stand apart are legible and every flag is accepted with its value. -/
theorem reads_all_iff (hg : grammar.Readable flags) {sub : Option (String × List String)}
    {tail : List String} (hend : ∀ reading : Reading, reading.awaits = false →
      grammar.readWords false reading tail = .ok (reading, sub))
    (written : List (Written flags)) (hready : reading.awaits = false) :
    grammar.Reads reading (written.flatMap Written.words ++ tail) settled next ↔
      (∀ w ∈ written, w.Legible) ∧ next = sub ∧
        (reading.resolve >>= written.foldlM fun reading w => reading.accept w.flag w.value) =
          .ok settled := by
  -- the value that has been read last may not be taken in yet, so the induction is on any reading
  -- and what it comes to is told once it is resolved
  induction written generalizing reading with
  | nil =>
    simp only [Reads, List.flatMap_nil, List.nil_append, hend reading hready, Except.ok.injEq,
      Prod.mk.injEq, List.foldlM_nil, bind_pure]
    constructor
    · rintro ⟨_, ⟨rfl, rfl⟩, hresolve⟩
      exact ⟨by simp, rfl, hresolve⟩
    · rintro ⟨-, rfl, hresolve⟩
      exact ⟨reading, ⟨rfl, rfl⟩, hresolve⟩
  | cons first others ih =>
    rw [List.flatMap_cons, List.append_assoc, hg.reads_written_iff]
    have htaken : (reading.resolve >>=
        (first :: others).foldlM fun reading w => reading.accept w.flag w.value) =
          reading.takeIn first >>= fun middle => middle.resolve >>=
            others.foldlM fun reading w => reading.accept w.flag w.value := by
      simp only [List.foldlM_cons, ← bind_assoc, Reading.takeIn_resolve]
    rw [htaken, List.forall_mem_cons]
    cases htake : reading.takeIn first with
    | error fault => simp [bind, Except.bind]
    | ok middle =>
      have hmiddle := ih (Reading.awaits_of_takeIn htake)
      simp [bind, Except.bind, hmiddle, and_assoc]

end Readable

end Grammar

/-! ## Whole levels -/

/-- Some written flags can be said together on a level. -/
structure Grammar.Admits (grammar : Grammar) {flags : List Flag} (written : List (Written flags)) :
    Prop where
  legible : ∀ w ∈ written, w.Legible
  checked : ∀ w ∈ written, w.Checked
  /-- No flag is repeated. -/
  distinct : (written.map (·.flag.name)).Nodup
  conflicts : ∀ pair ∈ grammar.conflicts,
    ¬(pair.1 ∈ written.map (·.flag.name) ∧ pair.2 ∈ written.map (·.flag.name))
  needs : ∀ pair ∈ grammar.needs,
    pair.1 ∈ written.map (·.flag.name) → pair.2 ∈ written.map (·.flag.name)

/-- Flags that can be said together can be said apart, where none needs another. -/
theorem Grammar.Admits.sublist {grammar : Grammar} {flags : List Flag}
    {written part : List (Written flags)} (h : grammar.Admits written)
    (hneeds : grammar.needs = []) (hpart : part.Sublist written) : grammar.Admits part where
  legible w hw := h.legible w (hpart.subset hw)
  checked w hw := h.checked w (hpart.subset hw)
  distinct := h.distinct.sublist (hpart.map _)
  conflicts pair hpair := fun ⟨hfirst, hsecond⟩ =>
    h.conflicts pair hpair ⟨(hpart.map _).subset hfirst, (hpart.map _).subset hsecond⟩
  needs := by simp [hneeds]

/-- What has been read of some written flags. -/
def Reading.ofWritten {flags : List Flag} (written : List (Written flags)) : Reading where
  given := written.map Written.entry

theorem Reading.map_fst_ofWritten {flags : List Flag} (written : List (Written flags)) :
    (ofWritten written).given.map Prod.fst = written.map (·.flag.name) := by
  rw [ofWritten, List.map_map]
  rfl

namespace Grammar

variable {grammar : Grammar} {flags : List Flag} {reading settled : Reading}

/-- Flags are accepted one after another exactly if their values are of their forms and none of them
is repeated. -/
theorem foldlM_accept_iff (hg : grammar.Readable flags) (written : List (Written flags))
    (hgiven : (reading.given.map Prod.fst).Nodup) :
    (written.foldlM (fun reading w => reading.accept w.flag w.value) reading) = .ok settled ↔
      (∀ w ∈ written, w.Checked) ∧
        ((reading.given ++ written.map Written.entry).map Prod.fst).Nodup ∧
        settled = { reading with given := reading.given ++ written.map Written.entry } := by
  induction written generalizing reading with
  | nil => simp [hgiven, eq_comm, pure, Except.pure]
  | cons first others ih =>
    obtain ⟨form, hform⟩ := hg.valued first.flag first.mem
    have hchecked : first.Checked ↔ form.check first.value = .ok () := by
      simp [Written.Checked, hform]
    rw [List.foldlM_cons, List.forall_mem_cons, hchecked, List.map_cons, List.append_cons]
    cases haccept : reading.accept first.flag first.value with
    | error fault =>
      have hrefused : ¬∃ next, reading.accept first.flag first.value = .ok next := by simp [haccept]
      simp only [Reading.accept_eq_ok_iff hform, not_exists] at hrefused
      refine iff_of_false (by simp [bind, Except.bind]) ?_
      rintro ⟨⟨hcheck, -⟩, hdistinct, -⟩
      refine hrefused _ ⟨fun hrepeated => ?_, hcheck, rfl⟩
      simp only [List.map_append, List.append_assoc, List.nodup_append] at hdistinct
      exact hdistinct.2.2 _ hrepeated _ (by simp [Written.entry]) rfl
    | ok next =>
      obtain ⟨hnew, hcheck, rfl⟩ := (Reading.accept_eq_ok_iff hform).1 haccept
      have hnext : ((reading.given ++ [first.entry]).map Prod.fst).Nodup := by
        rw [List.map_append, List.nodup_append]
        refine ⟨hgiven, List.nodup_singleton _, fun name hname other hother hsame => hnew ?_⟩
        have hfirst : name = first.flag.name := hsame.trans (List.mem_singleton.1 hother)
        rwa [← hfirst]
      have hothers : _ ↔ _ := @ih { reading with given := reading.given ++ [first.entry] } hnext
      simpa [hcheck, bind, Except.bind, Written.entry] using hothers

/-- A level ends well if the last flag has its value, no two flags conflict and none lacks what it
needs. -/
theorem finish_eq_ok_iff : grammar.finish reading = .ok settled ↔
    reading.resolve = .ok settled ∧
      (∀ pair ∈ grammar.conflicts, ¬(settled.has pair.1 = true ∧ settled.has pair.2 = true)) ∧
      ∀ pair ∈ grammar.needs, settled.has pair.1 = true → settled.has pair.2 = true := by
  unfold finish
  cases reading.resolve with
  | error fault => simp [bind, Except.bind]
  | ok taken =>
    simp only [bind, Except.bind, pure, Except.pure, Except.ok.injEq]
    by_cases hfree : ∀ pair ∈ grammar.conflicts,
      ¬(taken.has pair.1 = true ∧ taken.has pair.2 = true)
    · have hconflicts :
          (grammar.conflicts.any fun pair => taken.has pair.1 && taken.has pair.2) = false := by
        simpa using hfree
      by_cases hmet : ∀ pair ∈ grammar.needs, taken.has pair.1 = true → taken.has pair.2 = true
      · have hneeds :
            (grammar.needs.any fun pair => taken.has pair.1 && !taken.has pair.2) = false := by
          simpa using hmet
        rw [hconflicts, hneeds]
        constructor
        · rintro ⟨⟩
          exact ⟨rfl, hfree, hmet⟩
        · rintro ⟨rfl, -, -⟩
          rfl
      · have hneeds :
            (grammar.needs.any fun pair => taken.has pair.1 && !taken.has pair.2) = true := by
          simpa using hmet
        rw [hconflicts, hneeds]
        exact iff_of_false (by rintro ⟨⟩) fun ⟨hsame, _, hall⟩ => hmet (hsame ▸ hall)
    · have hconflicts :
          (grammar.conflicts.any fun pair => taken.has pair.1 && taken.has pair.2) = true := by
        simpa using hfree
      rw [hconflicts]
      exact iff_of_false (by rintro ⟨⟩) fun ⟨hsame, hall, _⟩ => hfree (hsame ▸ hall)

/-- The words of some written flags, behind which a level ends, are a level exactly if they can be
said together, and what has been read are the flags. -/
theorem Readable.level_iff (hg : grammar.Readable flags) {next sub : Option (String × List String)}
    {tail : List String} (hend : ∀ reading : Reading, reading.awaits = false →
      grammar.readWords false reading tail = .ok (reading, sub))
    (written : List (Written flags)) :
    (∃ last, grammar.readWords false {} (written.flatMap Written.words ++ tail) = .ok (last, next) ∧
        grammar.finish last = .ok settled) ↔
      grammar.Admits written ∧ next = sub ∧ settled = .ofWritten written := by
  have hempty : (({} : Reading).given.map Prod.fst).Nodup := List.nodup_nil
  have hread : grammar.Reads {} (written.flatMap Written.words ++ tail) settled next ↔
      (∀ w ∈ written, w.Legible) ∧ next = sub ∧ (∀ w ∈ written, w.Checked) ∧
        ((Reading.ofWritten written).given.map Prod.fst).Nodup ∧
        settled = .ofWritten written := by
    rw [hg.reads_all_iff hend written rfl]
    exact and_congr_right fun _ => and_congr_right fun _ => foldlM_accept_iff hg written hempty
  constructor
  · rintro ⟨last, hwords, hfinish⟩
    obtain ⟨hresolve, hconflicts, hneeds⟩ := finish_eq_ok_iff.1 hfinish
    obtain ⟨hlegible, hnext, hchecked, hdistinct, rfl⟩ := hread.1 ⟨last, hwords, hresolve⟩
    simp only [Reading.has_iff, Reading.map_fst_ofWritten] at hconflicts hneeds hdistinct
    exact ⟨⟨hlegible, hchecked, hdistinct, hconflicts, hneeds⟩, hnext, rfl⟩
  · rintro ⟨h, hnext, rfl⟩
    have hdistinct : ((Reading.ofWritten written).given.map Prod.fst).Nodup := by
      rw [Reading.map_fst_ofWritten]
      exact h.distinct
    obtain ⟨last, hwords, hresolve⟩ := hread.2 ⟨h.legible, hnext, h.checked, hdistinct, rfl⟩
    refine ⟨last, hwords, finish_eq_ok_iff.2 ⟨hresolve, ?conflicts, ?needs⟩⟩
    case conflicts =>
      simpa only [Reading.has_iff, Reading.map_fst_ofWritten] using h.conflicts
    case needs =>
      simpa only [Reading.has_iff, Reading.map_fst_ofWritten] using h.needs

theorem Readable.whole_level_iff (hg : grammar.Readable flags)
    {next : Option (String × List String)} (written : List (Written flags)) :
    (∃ last, grammar.readWords false {} (written.flatMap Written.words) = .ok (last, next) ∧
        grammar.finish last = .ok settled) ↔
      grammar.Admits written ∧ next = none ∧ settled = .ofWritten written := by
  have hend (reading : Reading) (_ : reading.awaits = false) :
      grammar.readWords false reading [] = .ok (reading, none) := by rw [readWords]
  rw [← hg.level_iff hend written, List.append_nil]

end Grammar

end Vitals.Command
