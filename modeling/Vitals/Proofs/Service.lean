import Vitals.Proofs.OrderedMap
import Vitals.Proofs.Utf8
import Vitals.Service

/-!
# The last service of each identity

Where several services have one identity, the last of them stands. `Service.last?` is that
service, `Service.LastOfEach` says of a list that it holds exactly these services in the order
of their identities, and `lastOfEach_values` that storing services one after another under
their identities gives the list. The order of identities is that of their bytes
(`Identity.lt_iff_bytesLt`).
-/

namespace Vitals

/-! ## Identities -/

namespace Identity

theorem lt_irrefl (a : Identity) : ¬a < a := by
  rintro (h | ⟨_, h⟩) <;> exact String.lt_irrefl _ h

instance : Std.Irrefl (α := Identity) (· < ·) := ⟨lt_irrefl⟩

instance : Std.Trichotomous (α := Identity) (· < ·) where
  trichotomous a b hab hba := by
    have hname : a.name = b.name := String.le_antisymm
      (String.not_lt.1 fun h => hba (Or.inl h)) (String.not_lt.1 fun h => hab (Or.inl h))
    have hversion : a.version = b.version := String.le_antisymm
      (String.not_lt.1 fun h => hba (Or.inr ⟨hname.symm, h⟩))
      (String.not_lt.1 fun h => hab (Or.inr ⟨hname, h⟩))
    cases a
    cases b
    rw [Identity.mk.injEq]
    exact ⟨hname, hversion⟩

/-- The bytes of the names decide, and under one name those of the versions. -/
def BytesLt (a b : Identity) : Prop :=
  Utf8.encode a.name < Utf8.encode b.name ∨
    a.name = b.name ∧ Utf8.encode a.version < Utf8.encode b.version

/-- Identities are ordered by the bytes of their names and then of their versions. -/
theorem lt_iff_bytesLt {a b : Identity} : a < b ↔ a.BytesLt b := by
  rw [BytesLt, Utf8.encode_lt_encode_iff, Utf8.encode_lt_encode_iff]
  exact Iff.rfl

end Identity

namespace Service

/-! ## The last service of an identity -/

/-- The last of the services that have the identity. -/
def last? (services : List Service) (identity : Identity) : Option Service :=
  (services.filter fun service => service.identity = identity).getLast?

/-- What comes later stands. -/
theorem last?_append (before services : List Service) (identity : Identity) :
    last? (before ++ services) identity =
      (last? services identity).or (last? before identity) := by
  rw [last?, List.filter_append, List.getLast?_append]
  rfl

theorem last?_singleton (service : Service) (identity : Identity) :
    last? [service] identity = if service.identity = identity then some service else none := by
  rw [last?, List.filter_singleton]
  split <;> simp_all

theorem mem_of_last? {services : List Service} {identity : Identity} {service : Service}
    (h : last? services identity = some service) :
    service ∈ services ∧ service.identity = identity := by
  simpa using List.mem_filter.1 (List.mem_of_getLast? h)

theorem last?_eq_none_iff {services : List Service} {identity : Identity} :
    last? services identity = none ↔ ∀ service ∈ services, service.identity ≠ identity := by
  simp [last?]

/-- The last service of an identity is one with none of this identity behind it. -/
theorem last?_eq_some_iff {services : List Service} {identity : Identity} {service : Service} :
    last? services identity = some service ↔
      ∃ before after, services = before ++ service :: after ∧ service.identity = identity ∧
        last? after identity = none := by
  constructor
  · intro h
    obtain ⟨others, hfilter⟩ := List.getLast?_eq_some_iff.1 h
    obtain ⟨front, back, rfl, -, hback⟩ := List.filter_eq_append_iff.1 hfilter
    obtain ⟨between, after, rfl, -, hservice, hafter⟩ := List.filter_eq_cons_iff.1 hback
    refine ⟨front ++ between, after, (List.append_assoc ..).symm, ?_, ?_⟩
    · simpa using hservice
    · rw [last?, hafter]
      rfl
  · rintro ⟨before, after, rfl, hservice, hafter⟩
    rw [last?_append, ← List.singleton_append, last?_append, hafter, last?_singleton,
      if_pos hservice]
    rfl

/-- Where no two services have one identity, each is the last of its own. -/
theorem last?_eq_some_of_nodup {services : List Service}
    (h : (services.map identity).Nodup) {service : Service} :
    last? services service.identity = some service ↔ service ∈ services := by
  refine ⟨fun hlast => (mem_of_last? hlast).1, fun hmem => ?_⟩
  obtain ⟨before, after, rfl⟩ := List.append_of_mem hmem
  refine last?_eq_some_iff.2 ⟨before, after, rfl, rfl, last?_eq_none_iff.2 fun other hother => ?_⟩
  rw [List.map_append, List.map_cons] at h
  have hrest := (List.nodup_append'.1 h).2.1
  exact fun hsame => (List.nodup_cons.1 hrest).1 (hsame ▸ List.mem_map_of_mem hother)

/-- What each of several lists has, if anything, all of them have together. -/
theorem last?_flatMap {α : Type} {lists : α → List Service} {xs : List α}
    {identity : Identity} {found : Option Service}
    (h : ∀ x ∈ xs, last? (lists x) identity = none ∨ last? (lists x) identity = found) :
    last? (xs.flatMap lists) identity = none ∨ last? (xs.flatMap lists) identity = found := by
  induction xs with
  | nil => exact Or.inl rfl
  | cons x xs ih =>
    rw [List.flatMap_cons, last?_append]
    rcases ih fun y hy => h y (List.mem_cons_of_mem x hy) with hxs | hxs
    · rw [hxs, Option.none_or]
      exact h x List.mem_cons_self
    · rw [hxs]
      cases found with
      | none => exact h x List.mem_cons_self
      | some service => exact Or.inr rfl

/-- Leaving services out leaves the last of an identity, if none of the identity is left
out. -/
theorem last?_filter {services : List Service} {identity : Identity} {keep : Service → Bool}
    (h : ∀ service, service.identity = identity → keep service = true) :
    last? (services.filter keep) identity = last? services identity := by
  rw [last?, last?, List.filter_filter]
  refine congrArg List.getLast? (List.filter_congr fun service _ => ?_)
  by_cases hservice : service.identity = identity
  · rw [h service hservice, Bool.and_true]
  · rw [decide_eq_false hservice, Bool.false_and]

/-- The services of a name have the last of each identity of that name. -/
theorem last?_named (services : List Service) (name : String) (identity : Identity) :
    last? (services.filter (·.name == name)) identity =
      if identity.name = name then last? services identity else none := by
  split
  · rename_i hname
    refine last?_filter fun service hservice => beq_iff_eq.2 ?_
    rw [← hname, ← hservice]
    rfl
  · rename_i hname
    refine last?_eq_none_iff.2 fun service hmem hservice => hname ?_
    rw [← hservice]
    exact beq_iff_eq.1 (List.mem_filter.1 hmem).2

/-! ## The last service of each identity -/

/-- `distinct` is made up of the last service of each identity, in order. -/
structure LastOfEach (services distinct : List Service) : Prop where
  ascending : distinct.Pairwise fun a b => a.identity.BytesLt b.identity
  mem_iff : ∀ service, service ∈ distinct ↔ last? services service.identity = some service

/-- No other list has the last service of each identity. -/
theorem LastOfEach.eq {services a b : List Service} (ha : LastOfEach services a)
    (hb : LastOfEach services b) : a = b := by
  have hirrefl : ∀ s : Service, ¬s.identity.BytesLt s.identity := fun s h =>
    Identity.lt_irrefl _ (Identity.lt_iff_bytesLt.2 h)
  have : Std.Irrefl fun a b : Service => a.identity.BytesLt b.identity := ⟨hirrefl⟩
  have : Std.Antisymm fun a b : Service => a.identity.BytesLt b.identity :=
    ⟨fun a b hab hba => by
      rw [← Identity.lt_iff_bytesLt] at hab hba
      exact absurd (Identity.lt_trans hab hba) (Identity.lt_irrefl _)⟩
  refine List.Pairwise.eq_of_mem_iff ha.ascending hb.ascending fun service => ?_
  rw [ha.mem_iff, hb.mem_iff]

theorem LastOfEach.congr {a b distinct : List Service}
    (h : ∀ identity, last? a identity = last? b identity) (ha : LastOfEach a distinct) :
    LastOfEach b distinct :=
  ⟨ha.ascending, fun service => by rw [ha.mem_iff, h]⟩

/-- Stores services one after another under their identities. -/
def putAll (found : OrderedMap Identity Service) (services : List Service) :
    OrderedMap Identity Service :=
  services.foldl (fun found service => found.put service.identity service) found

theorem putAll_append (found : OrderedMap Identity Service) (a b : List Service) :
    putAll found (a ++ b) = putAll (putAll found a) b :=
  List.foldl_append

/-- Services that are put one after another are found as the last of their identities. -/
theorem get?_putAll (found : OrderedMap Identity Service) (services : List Service)
    (identity : Identity) :
    (putAll found services).get? identity =
      (last? services identity).or (found.get? identity) := by
  induction services generalizing found with
  | nil => rfl
  | cons service services ih =>
    have hput : putAll found (service :: services) =
        putAll (found.put service.identity service) services := rfl
    rw [hput, ih, OrderedMap.get?_put, List.singleton_append.symm, last?_append, last?_singleton,
      Option.or_assoc]
    by_cases h : service.identity = identity
    · rw [if_pos h, if_pos h.symm]
      rfl
    · rw [if_neg h, if_neg (Ne.symm h)]
      rfl

/-- What is stored one after another is the last service of each identity. -/
theorem lastOfEach_values (services : List Service) :
    LastOfEach services (putAll .empty services).values := by
  set found := putAll .empty services with hfound
  have hget : ∀ identity, found.get? identity = last? services identity := fun identity => by
    rw [hfound, get?_putAll, OrderedMap.get?_empty, Option.or_none]
  have hkey : ∀ e ∈ found.entries, e.2.identity = e.1 := fun e he =>
    (mem_of_last? ((hget e.1).symm.trans (OrderedMap.get?_eq_some_iff.2 he))).2
  refine ⟨?_, fun service => ?_⟩
  · rw [OrderedMap.values, List.pairwise_map]
    refine found.ascending.imp_of_mem fun {a b} ha hb hab => ?_
    rw [hkey a ha, hkey b hb]
    exact Identity.lt_iff_bytesLt.1 hab
  · rw [← hget, OrderedMap.get?_eq_some_iff, OrderedMap.values, List.mem_map]
    refine ⟨?_, fun h => ⟨_, h, rfl⟩⟩
    rintro ⟨e, he, rfl⟩
    rw [hkey e he]
    exact he

end Service

end Vitals
