import Mathlib.Data.Bool.AllAny
import Mathlib.Data.List.Basic
import Mathlib.Data.List.TakeWhile
import Vitals.Proofs.Endpoint.Base
import Vitals.Url.Parser

/-!
# The path that an address is asked for

A text that names a host, with or without a port and a user, has none of the marks that end the
part of a URL before its path (`NamesHost`). What is written after such a name and begins with a
slash is what a server is asked for, whatever the name is (`Url.target_parse`) : every reader of a
part of the URL stops before that slash. So the stats server of a host is asked at the path of
reads, however its address is written (`Endpoint.target_read`).
-/

namespace Vitals

/-- The text names a host : it has no mark that ends a name, no blank and no control
character. -/
def NamesHost (host : List Char) : Prop :=
  host ≠ [] ∧ ∀ c ∈ host, 0x20 < c.toNat ∧ c ∉ ['/', '\\', '?', '#']

namespace Url

theorem endsAuthority_web {c : Char} (h : c ∉ ['/', '\\', '?', '#']) :
    endsAuthority .web c = false := by
  simp only [List.mem_cons, List.not_mem_nil, or_false, not_or] at h
  simp [endsAuthority, isSlash, h]

theorem isSlash_web {c : Char} (h : c ∉ ['/', '\\', '?', '#']) : isSlash .web c = false := by
  simp only [List.mem_cons, List.not_mem_nil, or_false, not_or] at h
  simp [isSlash, h]

/-! ## Readers that stop at a path -/

section

variable {name path : List Char}

theorem takeWhile_append_stop {p : Char → Bool} {stop : Char} {rest : List Char}
    (hname : ∀ c ∈ name, p c) (hstop : p stop = false) :
    (name ++ stop :: rest).takeWhile p = name := by
  rw [List.takeWhile_append_of_pos hname]
  simp [hstop]

theorem dropWhile_append_stop {p : Char → Bool} {stop : Char} {rest : List Char}
    (hname : ∀ c ∈ name, p c) (hstop : p stop = false) :
    (name ++ stop :: rest).dropWhile p = stop :: rest := by
  rw [List.dropWhile_append_of_pos hname]
  simp [hstop]

/-- What is left after the user is a part of the name, and the path. -/
theorem afterUser_web {text : List Char} (hname : ∀ c ∈ name, c ∉ ['/', '\\', '?', '#'])
    (h : afterUser .web (name ++ '/' :: path) = .ok text) :
    ∃ kept, text = kept ++ '/' :: path ∧ ∀ c ∈ kept, c ∈ name := by
  have hinside : ∀ c ∈ name, (!endsAuthority .web c) = true := fun c hc => by
    simp [endsAuthority_web (hname c hc)]
  have hstop : (!endsAuthority .web '/') = false := rfl
  unfold afterUser at h
  simp only [takeWhile_append_stop hinside hstop, dropWhile_append_stop hinside hstop] at h
  split_ifs at h
  · refine ⟨_, (Except.ok.inj h).symm, fun c hc => ?_⟩
    exact List.mem_reverse.1 ((List.takeWhile_sublist _).mem (List.mem_reverse.1 hc))
  · exact ⟨name, (Except.ok.inj h).symm, fun c hc => hc⟩

/-- The characters of a host end before the path, at a colon or at the end of the name. -/
theorem hostChars_web (path : List Char) (hname : ∀ c ∈ name, c ∉ ['/', '\\', '?', '#'])
    (bracketed : Bool) :
    ∃ more, name = hostChars .web bracketed (name ++ '/' :: path) ++ more ∧
      (more = [] ∨ ∃ port, more = ':' :: port) := by
  induction name generalizing bracketed with
  | nil => exact ⟨[], rfl, Or.inl rfl⟩
  | cons c name ih =>
    have hc := endsAuthority_web (hname c List.mem_cons_self)
    by_cases hcolon : (c == ':' && !bracketed) = true
    · have hport : c = ':' := by simp_all
      exact ⟨c :: name, by simp [hostChars, hcolon], Or.inr ⟨name, by rw [hport]⟩⟩
    · obtain ⟨more, hmore, hend⟩ := ih (fun d hd => hname d (List.mem_cons_of_mem c hd))
        (c == '[' || (bracketed && c != ']'))
      exact ⟨more, by simpa [hostChars, hc, hcolon] using hmore, hend⟩

/-- The digits of a port end at the path. -/
theorem readPort_web {port rest : List Char} {number : Option Nat}
    (hport : ∀ c ∈ port, c ∉ ['/', '\\', '?', '#'])
    (h : readPort (':' :: (port ++ '/' :: path)) = .ok (number, rest)) : rest = '/' :: path := by
  change (if _ then _ else Except.ok (_, (port ++ '/' :: path).dropWhile Char.isDigit)) = _ at h
  split at h
  · cases h
  · next hend =>
    obtain ⟨-, rfl⟩ := Prod.mk.inj (Except.ok.inj h)
    cases hdigits : port.dropWhile Char.isDigit with
    | nil =>
      rw [List.dropWhile_append, hdigits]
      rfl
    | cons d others =>
      -- after the digits the port goes on, which no port does
      have hd : d ∈ port := (List.dropWhile_sublist _).mem (hdigits ▸ List.mem_cons_self)
      have hrest : (port ++ '/' :: path).dropWhile Char.isDigit = d :: (others ++ '/' :: path) := by
        rw [List.dropWhile_append, hdigits]
        rfl
      have hmark := hport d hd
      simp_all

/-- What is left after the host and the port is the path. -/
theorem readHost_web {scheme : String} {host : Option String} {port : Option Nat}
    {rest : List Char} (hname : ∀ c ∈ name, c ∉ ['/', '\\', '?', '#'])
    (h : readHost scheme .web (name ++ '/' :: path) = .ok (host, port, rest)) :
    rest = '/' :: path := by
  obtain ⟨more, hmore, hend⟩ := hostChars_web path hname false
  have hmarks : ∀ c ∈ more, c ∉ ['/', '\\', '?', '#'] := fun c hc =>
    hname c (hmore ▸ List.mem_append_right _ hc)
  have hdrop : (name ++ '/' :: path).drop (hostChars .web false (name ++ '/' :: path)).length =
      more ++ '/' :: path := by
    generalize hostChars .web false (name ++ '/' :: path) = chars at hmore
    rw [hmore, List.append_assoc, List.drop_left]
  have hread {number : Option Nat} {rest : List Char}
      (h : readPort (more ++ '/' :: path) = .ok (number, rest)) : rest = '/' :: path := by
    rcases hend with rfl | ⟨port, rfl⟩
    · exact (Prod.mk.inj (Except.ok.inj h)).2.symm
    · exact readPort_web (fun c hc => hmarks c (List.mem_cons_of_mem _ hc)) h
  simp only [readHost, hdrop] at h
  cases hempty : (hostChars .web false (name ++ '/' :: path)).isEmpty with
  | true => simp [hempty, throw, throwThe, MonadExceptOf.throw, bind, Except.bind] at h
  | false =>
    cases hhost : Host.parse? (hostChars .web false (name ++ '/' :: path)) with
    | none => simp [hempty, hhost, throw, throwThe, MonadExceptOf.throw] at h
    | some name =>
      cases hport : readPort (more ++ '/' :: path) with
      | error fault => simp [hempty, hhost, hport, bind, Except.bind] at h
      | ok pair =>
        simp [hempty, hhost, hport, bind, Except.bind, pure, Except.pure] at h
        obtain ⟨-, -, rfl⟩ := h
        exact hread hport

end

/-! ## The path of a URL -/

theorem significant_eq {text : List Char} (h : ∀ c ∈ text, 0x20 < c.toNat) :
    significant text = text := by
  have hkeep (text : List Char) (h : ∀ c ∈ text, 0x20 < c.toNat) :
      text.dropWhile isOuter = text := by
    cases text with
    | nil => rfl
    | cons c text =>
      have hc := h c List.mem_cons_self
      exact List.dropWhile_cons_of_neg (by simpa [isOuter] using hc)
  have hreverse := hkeep text.reverse fun c hc => h c (List.mem_reverse.1 hc)
  rw [significant, hkeep text h, hreverse, List.reverse_reverse, List.filter_eq_self]
  intro c hc
  have hlarge := h c hc
  have hne : c ≠ '\t' ∧ c ≠ '\n' ∧ c ≠ '\r' := by
    refine ⟨?_, ?_, ?_⟩ <;> (rintro rfl; exact absurd hlarge (by decide))
  simp [hne]

/-- A text without marks has neither a query nor a fragment. -/
theorem splitMarks_eq {text : List Char} (h : ∀ c ∈ text, c ∉ ['?', '#']) :
    splitMarks text = (text, none, none) := by
  have hquery : ∀ c ∈ text, decide (c ≠ '?') = true := fun c hc => by
    simpa using fun hmark : c = '?' => h c hc (by simp [hmark])
  have hfragment : ∀ c ∈ text, decide (c ≠ '#') = true := fun c hc => by
    simpa using fun hmark : c = '#' => h c hc (by simp [hmark])
  simp only [splitMarks, after?, List.takeWhile_eq_self_iff.2 hfragment,
    List.takeWhile_eq_self_iff.2 hquery, List.dropWhile_eq_nil_iff.2 hfragment,
    List.dropWhile_eq_nil_iff.2 hquery]

/-- What follows the name of a host and begins with a slash is the path that a server is asked
for. -/
theorem target_parse {host path : List Char} {url : Url} (hhost : NamesHost host)
    (hpath : ∀ c ∈ path, 0x20 < c.toNat ∧ c ∉ ['?', '#'])
    (h : parse (String.ofList ("http://".toList ++ (host ++ '/' :: path))) = .ok url) :
    url.target = readPath .web ('/' :: path) := by
  obtain ⟨hne, hhost⟩ := hhost
  have hmarks : ∀ c ∈ host, c ∉ ['/', '\\', '?', '#'] := fun c hc => (hhost c hc).2
  have hbeginning : ∀ c ∈ "http://".toList, 0x20 < c.toNat ∧ c ∉ ['?', '#'] :=
    List.all_iff_forall_prop.1 (by decide)
  have hplain : ∀ c ∈ "http://".toList ++ (host ++ '/' :: path),
      0x20 < c.toNat ∧ c ∉ ['?', '#'] := fun c hc => by
    rcases List.mem_append.1 hc with hc | hc
    · exact hbeginning c hc
    · rcases List.mem_append.1 hc with hc | hc
      · have hmark := hhost c hc
        simp_all
      · rcases List.mem_cons.1 hc with rfl | hc
        · decide
        · exact hpath c hc
  have hsplit : splitMarks ("//".toList ++ (host ++ '/' :: path)) =
      ("//".toList ++ (host ++ '/' :: path), none, none) :=
    splitMarks_eq fun c hc => (hplain c (List.mem_append_right "http:".toList hc)).2
  have hslashes : ("//".toList ++ (host ++ '/' :: path)).dropWhile (isSlash .web) =
      host ++ '/' :: path := by
    cases host with
    | nil => exact absurd rfl hne
    | cons c host =>
      have hc := isSlash_web (hmarks c List.mem_cons_self)
      rw [List.dropWhile_append_of_pos (List.all_eq_true.1 (by decide))]
      exact List.dropWhile_cons_of_neg (by simp [hc])
  rw [parse, String.toList_ofList, significant_eq fun c hc => (hplain c hc).1] at h
  change ofParts "http" ("//".toList ++ (host ++ '/' :: path)) = _ at h
  simp only [ofParts, hsplit, show manner "http" = .web from rfl, hslashes] at h
  cases huser : afterUser .web (host ++ '/' :: path) with
  | error fault =>
    rw [huser] at h
    cases h
  | ok text =>
    obtain ⟨kept, rfl, hkept⟩ := afterUser_web hmarks huser
    rw [huser] at h
    cases hread : readHost "http" .web (kept ++ '/' :: path) with
    | error fault =>
      simp only [bind, Except.bind, hread] at h
      cases h
    | ok parts =>
      obtain ⟨name, port, rest⟩ := parts
      have hrest := readHost_web (fun c hc => hmarks c (hkept c hc)) hread
      simp only [bind, Except.bind, hread, hrest] at h
      rw [← Except.ok.inj h]
      simp [target]

end Url

/-! ## Where a stats server is read -/

namespace Endpoint

/-- The text is an address of a host : the name of the host, alone or as the beginning of a URL,
and any number of slashes. -/
def IsAddressOf (host : List Char) (address : String) : Prop :=
  NamesHost host ∧ ∃ beginning ∈ [[], "http://".toList], ∃ slashes,
    address.toList = beginning ++ host ++ List.replicate slashes '/'

/-- The stats server of a host is read at the same URL however its address is written. -/
theorem read_of_address {address : String} {host : List Char} (h : IsAddressOf host address) :
    read address = String.ofList ("http://".toList ++ (host ++ '/' :: "stats/read".toList)) := by
  obtain ⟨hhost, beginning, hbeginning, count, haddress⟩ := h
  have htext : address = String.ofList beginning ++ String.ofList host ++ slashes count := by
    rw [← String.toList_inj, haddress]
    simp [slashes]
  have hslash : '/' ∉ (String.ofList host).toList := by
    rw [String.toList_ofList]
    exact fun hslash => (hhost.2 '/' hslash).2 (by decide)
  have hne : String.ofList host ≠ "" := fun h => hhost.1 (String.ofList_eq_empty_iff.1 h)
  have hbase : String.ofList beginning ∈ ["", "http://", "https://"] ∧
      base (String.ofList beginning) (String.ofList host) = "http://" ++ String.ofList host := by
    simp only [List.mem_cons, List.not_mem_nil, or_false] at hbeginning
    rcases hbeginning with rfl | rfl <;> exact ⟨by decide, rfl⟩
  have hpath : "/stats/read" = String.ofList ('/' :: "stats/read".toList) := by decide
  rw [htext, read_eq hbase.1 hne hslash, hbase.2, hpath]
  simp only [String.ofList_append, String.ofList_toList, String.append_assoc]

/-- The stats server of a host is asked at the path of reads. -/
theorem target_read {address : String} {host : List Char} {url : Url}
    (h : IsAddressOf host address) (hurl : Url.parse (read address) = .ok url) :
    url.target = "/stats/read" := by
  have hpath : ∀ c ∈ "stats/read".toList, 0x20 < c.toNat ∧ c ∉ ['?', '#'] :=
    List.all_iff_forall_prop.1 (by decide)
  rw [read_of_address h] at hurl
  rw [Url.target_parse h.1 hpath hurl]
  decide +kernel

end Endpoint

end Vitals
