import Vitals.Proofs.Endpoint
import Vitals.Proofs.Url.Percent

/-!
# The segments that names stand in

A name is put into one segment of the path of a URL. The marks that end a path are not written
with `%`, so it stays there only if it has none of them. The segments of a call then stand for the
service and the method. Otherwise the call has a query or a fragment, and a lookup has the path of
the part of the name before its mark (`Endpoint.names_in_segments`). Marks or not, a segment is
read back as the name it was made of, and no two pairs of names have the same call
(`Endpoint.segments_read_back`).
-/

namespace Vitals

/-- The text has none of the marks that end the path of a URL. -/
def Unmarked (text : String) : Prop := ∀ c ∈ text.toList, c ∉ ['?', '#']

theorem unmarked_append {a b : String} : Unmarked (a ++ b) ↔ Unmarked a ∧ Unmarked b := by
  rw [Unmarked, String.toList_append, List.forall_mem_append, Unmarked, Unmarked]

theorem unmarked_escapeSegment {text : String} :
    Unmarked (Percent.escapeSegment text) ↔ Unmarked text := by
  have hmark {mark : Char} (hmark : mark ∈ ['?', '#']) :
      mark ∈ (Percent.escapeSegment text).toList ↔ mark ∈ text.toList := by
    simp only [List.mem_cons, List.not_mem_nil, or_false] at hmark
    rcases hmark with rfl | rfl <;> exact Percent.mem_escapeSegment_iff (by decide)
  exact ⟨fun h c hc hmem => h c ((hmark hmem).2 hc) hmem,
    fun h c hc hmem => h c ((hmark hmem).1 hc) hmem⟩

namespace Url

/-- What a text has before its first `#` and before the first `?`. -/
def beforeMarks (text : String) : String := String.ofList (splitMarks text.toList).1

/-- The parts between the slashes of what a text has before its marks. -/
def segments (text : String) : List String :=
  ((beforeMarks text).toList.splitOn '/').map String.ofList

/-! ## The marks of a text -/

theorem toList_beforeMarks (text : String) :
    (beforeMarks text).toList =
      (text.toList.takeWhile (fun c => decide (c ≠ '#'))).takeWhile (fun c => decide (c ≠ '?')) := by
  rw [beforeMarks, String.toList_ofList, splitMarks]

theorem after?_eq_none_iff {mark : Char} {text : List Char} :
    after? mark text = none ↔ mark ∉ text := by
  have hall : text.dropWhile (fun c => decide (c ≠ mark)) = [] ↔ mark ∉ text := by
    simp only [List.dropWhile_eq_nil_iff, decide_eq_true_eq]
    exact ⟨fun h hmem => h mark hmem rfl, fun h c hc heq => h (heq ▸ hc)⟩
  rw [← hall, after?]
  cases text.dropWhile (fun c => decide (c ≠ mark)) <;> simp

/-- A text has neither a query nor a fragment exactly if it has no mark. -/
theorem splitMarks_none_iff {text : String} :
    (splitMarks text.toList).2 = (none, none) ↔ Unmarked text := by
  constructor
  · intro h
    obtain ⟨hquery, hfragment⟩ := Prod.mk.inj h
    rw [after?_eq_none_iff] at hquery hfragment
    have hbefore : text.toList.takeWhile (fun c => decide (c ≠ '#')) = text.toList :=
      List.takeWhile_eq_self_iff.2 fun c hc => by
        rw [decide_eq_true_eq]
        rintro rfl
        exact hfragment hc
    rw [hbefore] at hquery
    intro c hc hmark
    simp only [List.mem_cons, List.not_mem_nil, or_false] at hmark
    rcases hmark with rfl | rfl
    exacts [hquery hc, hfragment hc]
  · intro h
    rw [splitMarks_eq h]

theorem unmarked_beforeMarks (text : String) : Unmarked (beforeMarks text) := by
  intro c hc hmark
  rw [toList_beforeMarks] at hc
  have hquery := List.mem_takeWhile_imp hc
  have hfragment := List.mem_takeWhile_imp ((List.takeWhile_sublist _).mem hc)
  simp_all

theorem beforeMarks_of_unmarked {text : String} (h : Unmarked text) : beforeMarks text = text := by
  rw [beforeMarks, splitMarks_eq h, String.ofList_toList]

theorem beforeMarks_eq_iff {text : String} : beforeMarks text = text ↔ Unmarked text :=
  ⟨fun h => h ▸ unmarked_beforeMarks text, beforeMarks_of_unmarked⟩

/-- Behind a text without marks, the marks are those of the rest. -/
theorem beforeMarks_append {front : String} (h : Unmarked front) (rest : String) :
    beforeMarks (front ++ rest) = front ++ beforeMarks rest := by
  have hkept {mark : Char} (hmark : mark ∈ ['?', '#']) (rest : List Char) :
      (front.toList ++ rest).takeWhile (fun c => decide (c ≠ mark)) =
        front.toList ++ rest.takeWhile (fun c => decide (c ≠ mark)) :=
    List.takeWhile_append_of_pos fun c hc => by
      rw [decide_eq_true_eq]
      rintro rfl
      exact h c hc hmark
  rw [← String.toList_inj, toList_beforeMarks, String.toList_append, hkept (by decide),
    hkept (by decide), String.toList_append, toList_beforeMarks]

/-! ## The marks of a name in a segment -/

theorem takeWhile_escape {mark : Char} (h : mark ∉ ['%', '2', '5', 'F', '0', '/', ' '])
    (text : List Char) :
    (text.flatMap Percent.escapeChar).takeWhile (fun c => decide (c ≠ mark)) =
      (text.takeWhile (fun c => decide (c ≠ mark))).flatMap Percent.escapeChar := by
  induction text with
  | nil => rfl
  | cons c text ih =>
    rw [List.flatMap_cons]
    by_cases hmark : c = mark
    · subst hmark
      simp only [List.mem_cons, List.not_mem_nil, or_false, not_or] at h
      rw [Percent.escapeChar_of_ne h.1 h.2.2.2.2.2.1 h.2.2.2.2.2.2]
      simp
    · have hkept : ∀ d ∈ Percent.escapeChar c, decide (d ≠ mark) = true := fun d hd => by
        rw [decide_eq_true_eq]
        rintro rfl
        exact hmark (Percent.eq_of_mem_escapeChar (by simp_all) hd).symm
      rw [List.takeWhile_append_of_pos hkept, ih,
        List.takeWhile_cons_of_pos (by rwa [decide_eq_true_eq]), List.flatMap_cons]

/-- A segment is cut off where its name is. -/
theorem beforeMarks_escapeSegment (name : String) :
    beforeMarks (Percent.escapeSegment name) = Percent.escapeSegment (beforeMarks name) := by
  rw [← String.toList_inj, toList_beforeMarks, Percent.toList_escapeSegment,
    takeWhile_escape (by decide), takeWhile_escape (by decide), Percent.toList_escapeSegment,
    toList_beforeMarks]

/-! ## The segments of a text -/

/-- A text that is joined of parts by slashes has these parts. -/
theorem segments_intercalate {parts : List String} (hne : parts ≠ [])
    (hslash : ∀ part ∈ parts, '/' ∉ part.toList) (h : Unmarked ("/".intercalate parts)) :
    segments ("/".intercalate parts) = parts := by
  have hparts : ∀ part ∈ parts.map String.toList, '/' ∉ part :=
    List.forall_mem_map.2 hslash
  rw [segments, beforeMarks_of_unmarked h, String.toList_intercalate,
    show "/".toList = ['/'] from rfl,
    List.splitOn_intercalate '/' hparts (by simpa using hne), List.map_map]
  simp

/-- What follows the last slash before the marks is the last segment. -/
theorem getLast?_segments {text last : String} (front : String) (hslash : '/' ∉ last.toList)
    (h : beforeMarks text = front ++ "/" ++ last) : (segments text).getLast? = some last := by
  have hlast : last.toList.splitOn '/' = [last.toList] :=
    List.splitOn_eq_singleton hslash
  have htext : (beforeMarks text).toList = front.toList ++ '/' :: last.toList := by
    rw [h, String.toList_append, String.toList_append, List.append_assoc]
    rfl
  rw [segments, htext, List.splitOn_append_cons_self, hlast, List.map_append, List.map_singleton,
    List.getLast?_concat, String.ofList_toList]

end Url

namespace Endpoint

/-! ## Where a method is called -/

section

variable {address service method : String}

theorem node_of_slash_notMem (h : '/' ∉ address.toList) : node address = "http://" ++ address := by
  rw [node, isUrl_of_slash_notMem h]
  rfl

theorem call_eq_intercalate (h : '/' ∉ address.toList) :
    call address service method = "/".intercalate
      ["http:", "", address, Percent.escapeSegment service, Percent.escapeSegment method] := by
  rw [call, node_of_slash_notMem h, ← String.toList_inj, String.toList_intercalate]
  simp [List.intercalate]

/-- A call has neither a query nor a fragment exactly if the names of the service and of the
method have no mark. -/
theorem unmarked_call_iff (hslash : '/' ∉ address.toList) (haddress : Unmarked address) :
    Unmarked (call address service method) ↔ Unmarked service ∧ Unmarked method := by
  have hbeginning : Unmarked "http://" := List.all_iff_forall_prop.1 (by decide)
  have hbetween : Unmarked "/" := List.all_iff_forall_prop.1 (by decide)
  rw [call, node_of_slash_notMem hslash]
  simp only [unmarked_append, unmarked_escapeSegment, hbeginning, hbetween, haddress, true_and,
    and_true]

theorem segments_call (hslash : '/' ∉ address.toList)
    (h : Unmarked (call address service method)) :
    Url.segments (call address service method) = ["http:", "", address,
      Percent.escapeSegment service, Percent.escapeSegment method] := by
  rw [call_eq_intercalate hslash] at h ⊢
  refine Url.segments_intercalate (List.cons_ne_nil _ _) (fun part hpart => ?_) h
  simp only [List.mem_cons, List.not_mem_nil, or_false] at hpart
  rcases hpart with rfl | rfl | rfl | rfl | rfl
  · decide
  · decide
  · exact hslash
  · exact Percent.slash_notMem_escapeSegment service
  · exact Percent.slash_notMem_escapeSegment method

end

/-! ## Where a service is looked up -/

section

variable {registry : String}

/-- Before its marks, a lookup is the one of what the name has before its marks. -/
theorem beforeMarks_service (h : Unmarked registry) (name : String) :
    Url.beforeMarks (service registry name) = service registry (Url.beforeMarks name) := by
  have hfront : Unmarked (registry ++ "/services/") :=
    unmarked_append.2 ⟨h, List.all_iff_forall_prop.1 (by decide)⟩
  rw [service, Url.beforeMarks_append hfront, Url.beforeMarks_escapeSegment, service]

/-- A lookup has the path of the lookup of what the name has before its marks. -/
theorem segments_service (h : Unmarked registry) (name : String) :
    Url.segments (service registry name) =
      Url.segments (service registry (Url.beforeMarks name)) := by
  rw [Url.segments, Url.segments, beforeMarks_service h, beforeMarks_service h,
    Url.beforeMarks_of_unmarked (Url.unmarked_beforeMarks name)]

theorem getLast?_segments_service (h : Unmarked registry) (name : String) :
    (Url.segments (service registry name)).getLast? =
      some (Percent.escapeSegment (Url.beforeMarks name)) := by
  refine Url.getLast?_segments (registry ++ "/services")
    (Percent.slash_notMem_escapeSegment _) ?_
  have hservices : "/services/" = "/services" ++ "/" := by decide
  rw [beforeMarks_service h, service, hservices, ← String.append_assoc]

end

/-! ## Names in segments -/

/-- The URL of a call has neither a query nor a fragment and two segments behind the address, which
stand for the service and the method, exactly if neither name has a mark. The last segment of a
lookup stands for what the name has before its marks, which is the name exactly if it has none ;
the lookup has the path of the lookup of that. -/
theorem names_in_segments {address registry : String}
    (haddress : ∀ c ∈ address.toList, c ∉ ['/', '?', '#'])
    (hregistry : ∀ c ∈ registry.toList, c ∉ ['?', '#']) (service method name : String) :
    let called := call address service method
    let asked := Endpoint.service registry name
    ((Url.splitMarks called.toList).2 = (none, none) ∧
        (∃ first second, Url.segments called = ["http:", "", address, first, second] ∧
          Percent.decodeSegment? first = some service ∧
            Percent.decodeSegment? second = some method) ↔
      Unmarked service ∧ Unmarked method) ∧
    (Url.segments asked).getLast?.bind Percent.decodeSegment? = some (Url.beforeMarks name) ∧
      (Url.beforeMarks name = name ↔ Unmarked name) ∧
        Url.segments asked =
          Url.segments (Endpoint.service registry (Url.beforeMarks name)) := by
  intro called asked
  have hslash : '/' ∉ address.toList := fun h => haddress '/' h (by decide)
  have hunmarked : Unmarked address := fun c hc hmark =>
    haddress c hc (List.mem_cons_of_mem '/' hmark)
  refine ⟨?_, ?_, Url.beforeMarks_eq_iff, segments_service hregistry name⟩
  · rw [Url.splitMarks_none_iff, ← unmarked_call_iff hslash hunmarked, and_iff_left_iff_imp]
    exact fun h => ⟨_, _, segments_call hslash h, Percent.decodeSegment?_escapeSegment service,
      Percent.decodeSegment?_escapeSegment method⟩
  · rw [getLast?_segments_service hregistry, Option.bind_some,
      Percent.decodeSegment?_escapeSegment]

/-- Names with signs of their own in the segments of a node and of a registry. -/
theorem names_in_segments_signs :
    (∀ c ∈ "10.0.0.1:9000".toList, c ∉ ['/', '?', '#']) ∧
      (∀ c ∈ "http://localhost:8500".toList, c ∉ ['?', '#']) ∧
        Url.segments (call "10.0.0.1:9000" "a/b" "50% up") =
          ["http:", "", "10.0.0.1:9000", "a%2Fb", "50%25%20up"] ∧
        (∃ first second, Url.segments (call "10.0.0.1:9000" "a/b" "50% up") =
            ["http:", "", "10.0.0.1:9000", first, second] ∧
          Percent.decodeSegment? first = some "a/b" ∧
            Percent.decodeSegment? second = some "50% up") ∧
          (Url.segments (service "http://localhost:8500" "a/b")).getLast?.bind
            Percent.decodeSegment? = some "a/b" := by
  have haddress : ∀ c ∈ "10.0.0.1:9000".toList, c ∉ ['/', '?', '#'] :=
    List.all_iff_forall_prop.1 (by decide)
  have hregistry : ∀ c ∈ "http://localhost:8500".toList, c ∉ ['?', '#'] :=
    List.all_iff_forall_prop.1 (by decide)
  obtain ⟨hcall, hlookup, hname, -⟩ := names_in_segments haddress hregistry "a/b" "50% up" "a/b"
  have hservice : Unmarked "a/b" := List.all_iff_forall_prop.1 (by decide)
  have hmethod : Unmarked "50% up" := List.all_iff_forall_prop.1 (by decide)
  refine ⟨haddress, hregistry, by decide +kernel, (hcall.2 ⟨hservice, hmethod⟩).2, ?_⟩
  rw [hlookup, hname.2 hservice]

/-- A question mark in the name of a service begins the query of a call, and the lookup of a name
with one is the lookup of another name. -/
theorem names_in_segments_questionMark :
    (Url.splitMarks (call "10.0.0.1:9000" "a?b" "Debug.Stats").toList).2 =
        (some "b/Debug.Stats".toList, none) ∧
      Url.segments (call "10.0.0.1:9000" "a?b" "Debug.Stats") =
        ["http:", "", "10.0.0.1:9000", "a"] ∧
      Url.segments (service "http://localhost:8500" "orders?v=2") =
        Url.segments (service "http://localhost:8500" "orders") ∧
      (Url.segments (service "http://localhost:8500" "orders?v=2")).getLast?.bind
        Percent.decodeSegment? ≠ some "orders?v=2" := by
  decide +kernel

/-! ## Names told apart -/

/-- As no segment has a slash, the slash between two of them is the first one behind the node. -/
theorem call_inj {address service method service' method' : String} :
    call address service method = call address service' method' ↔
      service = service' ∧ method = method' := by
  refine ⟨fun h => ?_, fun h => by rw [h.1, h.2]⟩
  have hsegments : (Percent.escapeSegment service).toList ++
      '/' :: (Percent.escapeSegment method).toList =
        (Percent.escapeSegment service').toList ++
          '/' :: (Percent.escapeSegment method').toList := by
    simpa [call] using congrArg String.toList h
  obtain ⟨hservice, -, hmethod⟩ := (List.append_cons_inj_of_notMem
    (Percent.slash_notMem_escapeSegment service)
    (Percent.slash_notMem_escapeSegment method)).1 hsegments
  exact ⟨Percent.escapeSegment_injective (String.toList_inj.1 hservice),
    Percent.escapeSegment_injective (String.toList_inj.1 hmethod)⟩

/-- A segment has neither a slash nor a space and is read back as the text that it was made of,
whatever escapes this has itself. So at every address the URL of a call tells which method of which
service is called. -/
theorem segments_read_back :
    (∀ text, Percent.decodeSegment? (Percent.escapeSegment text) = some text ∧
      '/' ∉ (Percent.escapeSegment text).toList ∧ ' ' ∉ (Percent.escapeSegment text).toList) ∧
    ∀ address, Function.Injective fun names : String × String =>
      call address names.1 names.2 := by
  refine ⟨fun text => ⟨Percent.decodeSegment?_escapeSegment text,
    Percent.notMem_escapeSegment (by decide) text,
    Percent.notMem_escapeSegment (by decide) text⟩, ?_⟩
  rintro address ⟨service, method⟩ ⟨service', method'⟩ h
  exact Prod.ext_iff.2 (call_inj.1 h)

end Endpoint

end Vitals
