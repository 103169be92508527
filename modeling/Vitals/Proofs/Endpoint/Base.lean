import Mathlib.Data.Bool.AllAny
import Mathlib.Data.List.Basic
import Vitals.Endpoint

/-!
# What an address is completed to

An address is the name of a host, alone or behind the beginning of a URL, and may be written with
slashes at its end. `Endpoint.base` is what it stands for. The stats server of a host is read
there however many slashes are written (`Endpoint.read_eq`). A node is called there if the address
is the beginning of a URL, but the slashes behind the name of a host alone are taken for a part of
it (`Endpoint.node_host_eq_iff`).
-/

namespace Vitals.Endpoint

/-- So many slashes. -/
def slashes (count : Nat) : String := String.ofList (List.replicate count '/')

/-- What an address stands for that is the name of a host, alone or behind the beginning of a
URL. -/
def base (beginning host : String) : String :=
  (if beginning = "" then "http://" else beginning) ++ host

/-! ## The parts of an address -/

theorem withoutSlashes_eq {text : String} {kept : List Char} {count : Nat}
    (hkept : kept.getLast? ≠ some '/')
    (h : text.toList = kept ++ List.replicate count '/') :
    withoutSlashes text = String.ofList kept := by
  have hslashes : ∀ c ∈ List.replicate count '/', (c == '/') = true := fun c hc => by
    simp [List.eq_of_mem_replicate hc]
  rw [withoutSlashes, h, List.reverse_append, List.reverse_replicate,
    List.dropWhile_append_of_pos hslashes]
  cases hlast : kept.reverse with
  | nil => simp [List.reverse_eq_nil_iff.1 hlast]
  | cons c front =>
    have hc : c ≠ '/' := fun hc => hkept (by
      rw [List.getLast?_eq_head?_reverse, hlast, hc]
      rfl)
    rw [List.dropWhile_cons_of_neg (by simpa using hc), ← hlast, List.reverse_reverse]

/-- Slashes behind a host do not count. -/
theorem withoutSlashes_append {host : String} (hne : host ≠ "") (hslash : '/' ∉ host.toList)
    (beginning : String) (count : Nat) :
    withoutSlashes (beginning ++ host ++ slashes count) = beginning ++ host := by
  have hlast : (beginning ++ host).toList.getLast? ≠ some '/' := by
    intro hlast
    have hchars : host.toList ≠ [] := fun hnil => hne (String.toList_eq_nil_iff.1 hnil)
    rw [String.toList_append, List.getLast?_append_of_ne_nil _ hchars] at hlast
    exact hslash (List.mem_of_getLast? hlast)
  rw [withoutSlashes_eq hlast (by rw [slashes, String.toList_append, String.toList_ofList]),
    String.ofList_toList]

theorem begins_append (beginning rest : String) : begins beginning (beginning ++ rest) = true := by
  rw [begins, String.toList_append]
  exact List.isPrefixOf_iff_prefix.2 (List.prefix_append _ _)

/-- A text without slashes is not the beginning of a URL. -/
theorem begins_eq_false {text beginning : String} (htext : '/' ∉ text.toList)
    (hbeginning : '/' ∈ beginning.toList) : begins beginning text = false :=
  Bool.eq_false_iff.2 fun hbegins =>
    htext ((List.isPrefixOf_iff_prefix.1 hbegins).subset hbeginning)

theorem isUrl_of_slash_notMem {text : String} (h : '/' ∉ text.toList) : isUrl text = false := by
  rw [isUrl, begins_eq_false h (by decide), begins_eq_false h (by decide)]
  rfl

theorem isUrl_append {beginning : String} (h : beginning ∈ ["http://", "https://"])
    (rest : String) : isUrl (beginning ++ rest) = true := by
  simp only [List.mem_cons, List.not_mem_nil, or_false] at h
  rcases h with rfl | rfl
  · rw [isUrl, begins_append, Bool.true_or]
  · rw [isUrl, begins_append, Bool.or_true]

/-! ## Where an address leads -/

section

variable {beginning host : String} {count : Nat}

/-- The stats server of a host is read at the same URL however its address is written. -/
theorem read_eq (hbeginning : beginning ∈ ["", "http://", "https://"]) (hne : host ≠ "")
    (hslash : '/' ∉ host.toList) (count : Nat) :
    read (beginning ++ host ++ slashes count) = base beginning host ++ "/stats/read" := by
  rw [read, withoutSlashes_append hne hslash]
  rcases List.mem_cons.1 hbeginning with rfl | hscheme
  · rw [String.empty_append, isUrl_of_slash_notMem hslash, base, if_pos rfl]
    rfl
  · have hbase : beginning ≠ "" := by rintro rfl; exact absurd hscheme (by decide)
    rw [if_pos (isUrl_append hscheme host), base, if_neg hbase]

theorem slashes_eq_empty_iff : slashes count = "" ↔ count = 0 := by
  rw [slashes, String.ofList_eq_empty_iff, List.replicate_eq_nil_iff]

/-- The slashes behind the name of a host alone are not taken away. -/
theorem node_host_eq_iff (hne : host ≠ "") (hslash : '/' ∉ host.toList) :
    node (host ++ slashes count) = "http://" ++ host ↔ count = 0 := by
  rw [node]
  cases hurl : isUrl (host ++ slashes count) with
  | true =>
    -- only slashes at the end make such a host the beginning of a URL, which is cut off there
    have hkept : withoutSlashes (host ++ slashes count) = host := by
      have hkept := withoutSlashes_append hne hslash "" count
      rwa [String.empty_append] at hkept
    have hcount : count ≠ 0 := by
      rintro rfl
      rw [slashes_eq_empty_iff.2 rfl, String.append_empty, isUrl_of_slash_notMem hslash] at hurl
      cases hurl
    have hlength : host ≠ "http://" ++ host := fun h => by
      have hlength := congrArg String.length h
      rw [String.length_append] at hlength
      exact absurd hlength (Nat.ne_of_lt (Nat.lt_add_of_pos_left (by decide)))
    simp [hkept, hcount, hlength]
  | false =>
    have hcut : "http://" ++ (host ++ slashes count) = "http://" ++ host ↔ count = 0 := by
      rw [String.append_right_inj, String.append_eq_left_iff, slashes_eq_empty_iff]
    simp [hcut]

/-- The slashes behind the beginning of a URL are taken away. -/
theorem node_url_eq {beginning : String} (h : beginning ∈ ["http://", "https://"]) (hne : host ≠ "")
    (hslash : '/' ∉ host.toList) :
    node (beginning ++ host ++ slashes count) = beginning ++ host := by
  have hurl : isUrl (beginning ++ host ++ slashes count) = true := by
    rw [String.append_assoc]
    exact isUrl_append h _
  rw [node, if_pos hurl, withoutSlashes_append hne hslash]

/-- A node is called at the base of its address exactly if this begins like a URL or has no slash
at its end. -/
theorem node_eq_iff (hbeginning : beginning ∈ ["", "http://", "https://"]) (hne : host ≠ "")
    (hslash : '/' ∉ host.toList) :
    node (beginning ++ host ++ slashes count) = base beginning host ↔
      beginning ≠ "" ∨ count = 0 := by
  rcases List.mem_cons.1 hbeginning with rfl | hscheme
  · rw [String.empty_append, base, if_pos rfl, node_host_eq_iff hne hslash]
    simp
  · have hbase : beginning ≠ "" := by rintro rfl; exact absurd hscheme (by decide)
    rw [node_url_eq hscheme hne hslash, base, if_neg hbase]
    simp [hbase]

/-- The stats server of a host is read at the base of its address, whatever slashes are written
behind the host. A node is called at the base as well if its address begins like a URL ; if it is
the name of a host alone, then only without slashes behind it. -/
theorem read_and_call_at_base (hbeginning : beginning ∈ ["", "http://", "https://"])
    (hne : host ≠ "") (hslash : '/' ∉ host.toList) (count : Nat) (service method : String) :
    let address := beginning ++ host ++ slashes count
    let base := base beginning host
    read address = base ++ "/stats/read" ∧
      (call address service method =
          base ++ "/" ++ Percent.escapeSegment service ++ "/" ++ Percent.escapeSegment method ↔
        beginning ≠ "" ∨ count = 0) := by
  intro address base
  refine ⟨read_eq hbeginning hne hslash count, ?_⟩
  rw [call, String.append_left_inj, String.append_left_inj, String.append_left_inj,
    String.append_left_inj]
  exact node_eq_iff hbeginning hne hslash

/-- A secured host that is written with three slashes behind it. -/
theorem read_and_call_secured :
    "https://" ∈ ["", "http://", "https://"] ∧ "node.local:9000" ≠ "" ∧
      '/' ∉ "node.local:9000".toList ∧
        read "https://node.local:9000///" = "https://node.local:9000/stats/read" ∧
          call "https://node.local:9000///" "a/b" "Debug.Stats" =
            "https://node.local:9000/a%2Fb/Debug.Stats" := by
  have hbeginning : "https://" ∈ ["", "http://", "https://"] := by decide
  have hne : "node.local:9000" ≠ "" := by decide
  have hslash : '/' ∉ "node.local:9000".toList := by decide
  obtain ⟨hread, hcall⟩ := read_and_call_at_base hbeginning hne hslash 3 "a/b" "Debug.Stats"
  exact ⟨hbeginning, hne, hslash, hread, hcall.2 (Or.inl (by decide))⟩

/-- A node is not called at the base of its address if this is the name of a host alone with a
slash behind it. -/
theorem call_slash_behind_host :
    read "10.0.0.1:9000/" = base "" "10.0.0.1:9000" ++ "/stats/read" ∧
      call "10.0.0.1:9000/" "orders" "Debug.Stats" =
        "http://10.0.0.1:9000//orders/Debug.Stats" ∧
          call "10.0.0.1:9000/" "orders" "Debug.Stats" ≠
            base "" "10.0.0.1:9000" ++ "/" ++ Percent.escapeSegment "orders" ++ "/" ++
              Percent.escapeSegment "Debug.Stats" := by
  decide +kernel

end

end Vitals.Endpoint
