/-
  Maps as lists of entries in ascending order of their keys.

  * `SortedMap.put`: the map with one key set.
  * `SortedMap.mem_put`: its entries.
  * `SortedMap.Keys`: a property of all keys, preserved when one is set.
  * `SortedMap.putAll`: the map with a list of keys set, some of them perhaps not; `putAll_injective`:
    the map tells what was set, when the keys are different.
-/
import Mathlib.Order.Lattice
import Mathlib.Data.List.Basic

namespace TrtcAsr

/-- A map; its entries ascend strictly, so each key stands once. -/
structure SortedMap (κ ν : Type*) [LinearOrder κ] where
  entries : List (κ × ν)
  sorted : entries.Pairwise fun x y => x.1 < y.1

namespace SortedMap

variable {κ ν : Type*} [LinearOrder κ]

def empty : SortedMap κ ν := ⟨[], .nil⟩

/-- The entries with `k` set to `v`. -/
def insert (k : κ) (v : ν) : List (κ × ν) → List (κ × ν)
  | [] => [(k, v)]
  | x :: l =>
    if k < x.1 then (k, v) :: x :: l
    else if k = x.1 then (k, v) :: l
    else x :: insert k v l

theorem mem_of_mem_insert {k : κ} {v : ν} {x : κ × ν} {l : List (κ × ν)} (h : x ∈ insert k v l) :
    x = (k, v) ∨ x ∈ l := by
  induction l with
  | nil => exact .inl (List.mem_singleton.1 h)
  | cons y l ih =>
    unfold insert at h
    split at h
    · exact List.mem_cons.1 h
    split at h
    · exact (List.mem_cons.1 h).imp id (List.mem_cons_of_mem y)
    · rcases List.mem_cons.1 h with rfl | h
      · exact .inr List.mem_cons_self
      · exact (ih h).imp id (List.mem_cons_of_mem y)

theorem sorted_insert {k : κ} {v : ν} {l : List (κ × ν)} (h : l.Pairwise fun x y => x.1 < y.1) :
    (insert k v l).Pairwise fun x y => x.1 < y.1 := by
  induction l with
  | nil => exact List.pairwise_singleton ..
  | cons y l ih =>
    obtain ⟨hy, hl⟩ := List.pairwise_cons.1 h
    unfold insert
    split
    · rename_i hlt
      refine List.pairwise_cons.2 ⟨fun x hx => ?_, h⟩
      rcases List.mem_cons.1 hx with rfl | hx
      · exact hlt
      · exact hlt.trans (hy x hx)
    split
    · rename_i heq
      exact List.pairwise_cons.2 ⟨fun x hx => heq ▸ hy x hx, hl⟩
    · rename_i hnlt hne
      refine List.pairwise_cons.2 ⟨fun x hx => ?_, ih hl⟩
      rcases mem_of_mem_insert hx with rfl | hx
      · exact lt_of_le_of_ne (not_lt.1 hnlt) (Ne.symm hne)
      · exact hy x hx

/-- `m[k] = v`. -/
def put (m : SortedMap κ ν) (k : κ) (v : ν) : SortedMap κ ν :=
  ⟨insert k v m.entries, sorted_insert m.sorted⟩

/-- `if (c) m[k] = v`. -/
def putIf (m : SortedMap κ ν) (c : Bool) (k : κ) (v : ν) : SortedMap κ ν :=
  if c then m.put k v else m

/-- `if (o.has_value()) m[k] = f(*o)`. -/
def putSome {α : Type*} (m : SortedMap κ ν) (o : Option α) (k : κ) (f : α → ν) : SortedMap κ ν :=
  match o with
  | some a => m.put k (f a)
  | none => m

theorem mem_insert_self (k : κ) (v : ν) (l : List (κ × ν)) : (k, v) ∈ insert k v l := by
  induction l with
  | nil => exact List.mem_singleton.2 rfl
  | cons y l ih =>
    unfold insert
    split
    · exact List.mem_cons_self
    split
    · exact List.mem_cons_self
    · exact List.mem_cons_of_mem y ih

theorem mem_insert_of_mem {k : κ} {v : ν} {x : κ × ν} {l : List (κ × ν)} (h : x ∈ l)
    (hne : x.1 ≠ k) : x ∈ insert k v l := by
  induction l with
  | nil => cases h
  | cons y l ih =>
    unfold insert
    split
    · exact List.mem_cons_of_mem _ h
    split
    · rename_i heq
      rcases List.mem_cons.1 h with rfl | h
      · exact absurd heq.symm hne
      · exact List.mem_cons_of_mem _ h
    · rcases List.mem_cons.1 h with rfl | h
      · exact List.mem_cons_self
      · exact List.mem_cons_of_mem y (ih h)

/-- A key is set only once. -/
theorem key_unique (m : SortedMap κ ν) {k : κ} {v w : ν} (hv : (k, v) ∈ m.entries)
    (hw : (k, w) ∈ m.entries) : v = w := by
  have h := m.sorted
  generalize m.entries = l at h hv hw
  induction l with
  | nil => cases hv
  | cons y l ih =>
    obtain ⟨hy, hl⟩ := List.pairwise_cons.1 h
    rcases List.mem_cons.1 hv with rfl | hv'
    · rcases List.mem_cons.1 hw with heq | hw'
      · exact (congrArg Prod.snd heq).symm
      · exact absurd (hy (k, w) hw') (lt_irrefl k)
    · rcases List.mem_cons.1 hw with rfl | hw'
      · exact absurd (hy (k, v) hv') (lt_irrefl k)
      · exact ih hl hv' hw'

/-- **The entries after `m[k] = v`**. -/
theorem mem_put {m : SortedMap κ ν} {k : κ} {v : ν} {x : κ × ν} :
    x ∈ (m.put k v).entries ↔ x = (k, v) ∨ x ∈ m.entries ∧ x.1 ≠ k := by
  constructor
  · intro h
    by_cases hk : x.1 = k
    · obtain ⟨k', w⟩ := x
      obtain rfl : k' = k := hk
      rw [(m.put k' v).key_unique h (mem_insert_self ..)]
      exact .inl rfl
    · exact (mem_of_mem_insert h).imp id fun h => ⟨h, hk⟩
  · rintro (rfl | ⟨h, hk⟩)
    · exact mem_insert_self ..
    · exact mem_insert_of_mem h hk

/-- All keys have the property `P`. -/
def Keys (P : κ → Prop) (m : SortedMap κ ν) : Prop := ∀ x ∈ m.entries, P x.1

variable {P : κ → Prop} {m : SortedMap κ ν} {k : κ}

theorem keys_empty : (empty : SortedMap κ ν).Keys P := nofun

theorem Keys.put (h : m.Keys P) (hk : P k) (v : ν) : (m.put k v).Keys P := by
  intro x hx
  rcases mem_of_mem_insert hx with rfl | hx
  · exact hk
  · exact h x hx

/-! ## Several keys -/

/-- `if (o.has_value()) m[k] = *o` for each entry `(k, o)` of a list. -/
def putAll (m : SortedMap κ ν) (l : List (κ × Option ν)) : SortedMap κ ν :=
  l.foldl (fun m e => m.putSome e.2 e.1 id) m

theorem putIf_eq (m : SortedMap κ ν) (c : Bool) (k : κ) (v : ν) :
    m.putIf c k v = m.putSome (if c then some v else none) k id := by
  cases c with
  | false => rfl
  | true => rfl

theorem putSome_eq {α : Type*} (m : SortedMap κ ν) (o : Option α) (k : κ) (f : α → ν) :
    m.putSome o k f = m.putSome (o.map f) k id := by
  cases o with
  | none => rfl
  | some a => rfl

/-- The entries after new keys are set. -/
theorem mem_putAll {l : List (κ × Option ν)} {x : κ × ν} (hnodup : (l.map Prod.fst).Nodup)
    (hnew : m.Keys fun k => k ∉ l.map Prod.fst) :
    x ∈ (m.putAll l).entries ↔ x ∈ m.entries ∨ (x.1, some x.2) ∈ l := by
  induction l generalizing m with
  | nil => simp [putAll]
  | cons e l ih =>
    obtain ⟨k, o⟩ := e
    obtain ⟨(hk : k ∉ l.map Prod.fst), htail⟩ := List.nodup_cons.1 hnodup
    have hfresh : m.Keys fun k => k ∉ l.map Prod.fst :=
      fun x hx hmem => hnew x hx (List.mem_cons_of_mem _ hmem)
    have hne : ∀ x ∈ m.entries, x.1 ≠ k := fun x hx heq => hnew x hx (heq ▸ List.mem_cons_self)
    cases o with
    | none =>
      change x ∈ (m.putAll l).entries ↔ _
      rw [ih htail hfresh, List.mem_cons]
      simp
    | some v =>
      change x ∈ ((m.put k v).putAll l).entries ↔ _
      rw [ih htail (hfresh.put hk v), mem_put, List.mem_cons]
      constructor
      · rintro ((rfl | ⟨hx, -⟩) | hx)
        · exact .inr (.inl rfl)
        · exact .inl hx
        · exact .inr (.inr hx)
      · rintro (hx | heq | hx)
        · exact .inl (.inr ⟨hx, hne x hx⟩)
        · obtain ⟨k', v'⟩ := x
          cases heq
          exact .inl (.inl rfl)
        · exact .inr hx

/-- Two lists with the same keys that set the same entries. -/
theorem eq_of_mem_iff {l l' : List (κ × Option ν)} (hkeys : l.map Prod.fst = l'.map Prod.fst)
    (hnodup : (l.map Prod.fst).Nodup) (h : ∀ k v, (k, some v) ∈ l ↔ (k, some v) ∈ l') : l = l' := by
  induction l generalizing l' with
  | nil => exact (List.map_eq_nil_iff.1 hkeys.symm).symm
  | cons e l ih =>
    obtain ⟨k, o⟩ := e
    obtain _ | ⟨⟨k', o'⟩, l'⟩ := l'
    · cases hkeys
    obtain ⟨rfl, hkeys'⟩ := List.cons.inj hkeys
    obtain ⟨hk, hnodup'⟩ := List.nodup_cons.1 hnodup
    have hk' : k ∉ l'.map Prod.fst := hkeys' ▸ hk
    have habsent : ∀ {v} {l : List (κ × Option ν)}, k ∉ l.map Prod.fst → (k, some v) ∉ l :=
      fun hk hmem => hk (List.mem_map_of_mem hmem)
    have hhead : ∀ v, o = some v ↔ o' = some v := by
      intro v
      have := h k v
      simp only [List.mem_cons, Prod.mk.injEq, true_and, habsent hk, habsent hk', or_false] at this
      exact ⟨fun ho => (this.1 ho.symm).symm, fun ho => (this.2 ho.symm).symm⟩
    have htail : ∀ j v, (j, some v) ∈ l ↔ (j, some v) ∈ l' := by
      intro j v
      by_cases hj : j = k
      · subst hj
        exact iff_of_false (habsent hk) (habsent hk')
      · simpa [hj] using h j v
    rw [Option.ext hhead, ih hkeys' hnodup' htail]

/-- **A map tells what was set**, when the keys are different. -/
theorem putAll_injective {l l' : List (κ × Option ν)} (hkeys : l.map Prod.fst = l'.map Prod.fst)
    (hnodup : (l.map Prod.fst).Nodup) (h : empty.putAll l = empty.putAll l') : l = l' := by
  refine eq_of_mem_iff hkeys hnodup fun k v => ?_
  have hnone : (k, v) ∉ (empty : SortedMap κ ν).entries := List.not_mem_nil
  have hl := mem_putAll (x := (k, v)) hnodup keys_empty
  have hl' := mem_putAll (x := (k, v)) (hkeys ▸ hnodup) keys_empty
  rw [h, or_iff_right hnone] at hl
  rw [or_iff_right hnone] at hl'
  exact hl.symm.trans hl'

end SortedMap

end TrtcAsr
