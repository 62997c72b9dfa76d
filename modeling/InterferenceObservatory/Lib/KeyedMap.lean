import Std.Data.ExtTreeMap
import Std.Data.ExtTreeSet
import Mathlib.Data.List.Induction
import Mathlib.Data.List.Sort

/-! Ordered maps as a program rebuilds them. `overlay` writes a list of entries over
a map, the last entry of a key winning. A `KeyedMap` stores every value under the key
the value itself carries, so an entry filed under a foreign key cannot be built. -/

open Std

section Overlay

variable {K V : Type}

theorem exists_last_of_mem {l : List (K × V)} {k : K} (h : k ∈ l.map Prod.fst) :
    ∃ l₁ v l₂, l = l₁ ++ (k, v) :: l₂ ∧ k ∉ l₂.map Prod.fst := by
  induction l with
  | nil => simp at h
  | cons e l ih =>
    by_cases hl : k ∈ l.map Prod.fst
    · obtain ⟨l₁, v, l₂, rfl, hn⟩ := ih hl
      exact ⟨e :: l₁, v, l₂, rfl, hn⟩
    · simp only [List.map_cons, List.mem_cons, hl, or_false] at h
      exact ⟨[], e.2, l, by rw [h, List.nil_append], hl⟩

variable [Ord K] [TransOrd K]

def overlay (l : List (K × V)) (m : ExtTreeMap K V) : ExtTreeMap K V :=
  l.foldl (fun m e => m.insert e.1 e.2) m

@[simp] theorem overlay_nil (m : ExtTreeMap K V) : overlay [] m = m := rfl

theorem overlay_append (l l' : List (K × V)) (m : ExtTreeMap K V) :
    overlay (l ++ l') m = overlay l' (overlay l m) := List.foldl_append

variable [LawfulEqOrd K]

theorem getElem?_insert_cases {m : ExtTreeMap K V} {k k' : K} {v w : V}
    (h : (m.insert k v)[k']? = some w) : k' = k ∧ w = v ∨ m[k']? = some w := by
  rw [ExtTreeMap.getElem?_insert] at h
  split_ifs at h with hk
  · exact .inl ⟨(LawfulEqOrd.eq_of_compare hk).symm, (Option.some.inj h).symm⟩
  · exact .inr h

theorem getElem?_insert_of_ne {m : ExtTreeMap K V} {k k' : K} {v : V} (h : k' ≠ k) :
    (m.insert k v)[k']? = m[k']? := by
  rw [ExtTreeMap.getElem?_insert, if_neg]
  intro hk
  exact h (LawfulEqOrd.eq_of_compare hk).symm

theorem insert_comm (m : ExtTreeMap K V) {k k' : K} {v v' : V} (h : k ≠ k') :
    (m.insert k v).insert k' v' = (m.insert k' v').insert k v := by
  ext i : 1
  by_cases hi : i = k
  · subst hi
    rw [getElem?_insert_of_ne h, ExtTreeMap.getElem?_insert_self, ExtTreeMap.getElem?_insert_self]
  · by_cases hi' : i = k'
    · subst hi'
      rw [ExtTreeMap.getElem?_insert_self, getElem?_insert_of_ne hi,
        ExtTreeMap.getElem?_insert_self]
    · rw [getElem?_insert_of_ne hi', getElem?_insert_of_ne hi, getElem?_insert_of_ne hi,
        getElem?_insert_of_ne hi']

theorem insert_insert_self (m : ExtTreeMap K V) (k : K) (v : V) :
    (m.insert k v).insert k v = m.insert k v := by
  apply ExtTreeMap.ext_getElem?
  intro k'
  by_cases h : k' = k
  · rw [h, ExtTreeMap.getElem?_insert_self, ExtTreeMap.getElem?_insert_self]
  · rw [getElem?_insert_of_ne h]

theorem overlay_of_notMem {l : List (K × V)} {k : K} (h : k ∉ l.map Prod.fst)
    (m : ExtTreeMap K V) : (overlay l m)[k]? = m[k]? := by
  induction l generalizing m with
  | nil => rfl
  | cons e l ih =>
    simp only [List.map_cons, List.mem_cons, not_or] at h
    rw [overlay, List.foldl_cons]
    refine (ih h.2 _).trans ?_
    rw [ExtTreeMap.getElem?_insert, if_neg]
    intro he
    exact h.1 (LawfulEqOrd.eq_of_compare he).symm

theorem overlay_of_last (l l' : List (K × V)) {k : K} {v : V} (h : k ∉ l'.map Prod.fst)
    (m : ExtTreeMap K V) : (overlay (l ++ (k, v) :: l') m)[k]? = some v := by
  rw [overlay_append, overlay, List.foldl_cons]
  refine (overlay_of_notMem h _).trans ?_
  rw [ExtTreeMap.getElem?_insert_self]

theorem overlay_of_mem {l : List (K × V)} {k : K} (h : k ∈ l.map Prod.fst)
    (m m' : ExtTreeMap K V) : (overlay l m)[k]? = (overlay l m')[k]? := by
  obtain ⟨l₁, v, l₂, rfl, hn⟩ := exists_last_of_mem h
  rw [overlay_of_last _ _ hn, overlay_of_last _ _ hn]

theorem mem_of_overlay {l : List (K × V)} {m : ExtTreeMap K V} {k : K} {v : V}
    (h : (overlay l m)[k]? = some v) : (k, v) ∈ l ∨ m[k]? = some v := by
  by_cases hk : k ∈ l.map Prod.fst
  · obtain ⟨l₁, w, l₂, rfl, hn⟩ := exists_last_of_mem hk
    rw [overlay_of_last _ _ hn, Option.some.injEq] at h
    rw [← h]
    exact .inl (by simp)
  · rw [overlay_of_notMem hk] at h
    exact .inr h

theorem overlay_toList_map (m : ExtTreeMap K V) (f : V → V) :
    overlay (m.toList.map fun e => (e.1, f e.2)) m = m.map fun _ v => f v := by
  have hmem : ∀ k w, (k, w) ∈ m.toList.map (fun e => (e.1, f e.2)) ↔
      (m[k]?).map f = some w := by
    intro k w
    rw [List.mem_map, Option.map_eq_some_iff]
    constructor
    · rintro ⟨⟨k', v⟩, he, heq⟩
      obtain ⟨rfl, rfl⟩ := Prod.ext_iff.mp heq
      exact ⟨v, ExtTreeMap.mem_toList_iff_getElem?_eq_some.mp he, rfl⟩
    · rintro ⟨v, hv, rfl⟩
      exact ⟨(k, v), ExtTreeMap.mem_toList_iff_getElem?_eq_some.mpr hv, rfl⟩
  apply ExtTreeMap.ext_getElem?
  intro k
  rw [ExtTreeMap.getElem?_map]
  by_cases hk : k ∈ (m.toList.map fun e => (e.1, f e.2)).map Prod.fst
  · obtain ⟨l₁, w, l₂, hl, hlast⟩ := exists_last_of_mem hk
    have hw : (k, w) ∈ m.toList.map fun e => (e.1, f e.2) := by
      rw [hl]
      simp
    rw [(hmem k w).mp hw, hl]
    exact overlay_of_last l₁ l₂ hlast m
  · rw [overlay_of_notMem hk]
    rcases hv : m[k]? with _ | v
    · rfl
    · have hw := (hmem k (f v)).mpr (by rw [hv]; rfl)
      exact absurd (List.mem_map_of_mem (f := Prod.fst) hw) hk

theorem mem_of_foldl_insertIfNew {l : List (K × V)} {m : ExtTreeMap K V} {k : K} {v : V}
    (h : (l.foldl (fun m e => m.insertIfNew e.1 e.2) m)[k]? = some v) :
    (k, v) ∈ l ∨ m[k]? = some v := by
  induction l generalizing m with
  | nil => exact .inr h
  | cons e l ih =>
    rcases ih h with hl | hm
    · exact .inl (List.mem_cons_of_mem _ hl)
    · rw [ExtTreeMap.getElem?_insertIfNew] at hm
      split_ifs at hm with hk
      · rw [← LawfulEqOrd.eq_of_compare hk.1, ← Option.some.inj hm]
        exact .inl (List.mem_cons_self ..)
      · exact .inr hm

theorem overlay_empty_eq_none_iff {l : List (K × V)} {k : K} :
    (overlay l (∅ : ExtTreeMap K V))[k]? = none ↔ k ∉ l.map Prod.fst := by
  constructor
  · intro h hk
    obtain ⟨l₁, v, l₂, rfl, hn⟩ := exists_last_of_mem hk
    rw [overlay_of_last _ _ hn] at h
    cases h
  · intro h
    rw [overlay_of_notMem h, ExtTreeMap.getElem?_empty]

theorem overlay_latest {I : Type} [Ord I] [TransOrd I] {key : V → K} {L : List (I × V)}
    (hs : L.Pairwise fun a b => compare a.1 b.1 = .lt) {k : K} {v : V} :
    (overlay (L.map fun e => (key e.2, e.2)) (∅ : ExtTreeMap K V))[k]? = some v ↔
      ∃ i, (i, v) ∈ L ∧ key v = k ∧ ∀ e ∈ L, key e.2 = k → (compare e.1 i).isLE := by
  induction L using List.reverseRecOn with
  | nil => simp
  | append_singleton L e ih =>
    obtain ⟨hL, -, hlt⟩ := List.pairwise_append.mp hs
    rw [List.map_append, overlay_append]
    change ((overlay _ _).insert (key e.2) e.2)[k]? = some v ↔ _
    rw [ExtTreeMap.getElem?_insert]
    by_cases hk : key e.2 = k
    · rw [if_pos (LawfulEqOrd.compare_eq_iff_eq.mpr hk), Option.some.injEq]
      constructor
      · rintro rfl
        refine ⟨e.1, by simp, hk, fun f hf _ => ?_⟩
        rcases List.mem_append.mp hf with hf | hf
        · rw [hlt f hf e (List.mem_singleton_self e)]
          rfl
        · rw [List.mem_singleton.mp hf, ReflOrd.compare_self]
          rfl
      · rintro ⟨i, hi, -, hmax⟩
        rcases List.mem_append.mp hi with hi | hi
        · -- the last record is above every earlier one of its cell
          have hbelow := hlt _ hi e (List.mem_singleton_self e)
          have habove := hmax e (by simp) hk
          rw [OrientedOrd.eq_swap, hbelow] at habove
          cases habove
        · rw [← List.mem_singleton.mp hi]
    · rw [if_neg fun h => hk (LawfulEqOrd.eq_of_compare h), ih hL]
      constructor
      · rintro ⟨i, hi, hv, hmax⟩
        refine ⟨i, List.mem_append_left _ hi, hv, fun f hf hfk => ?_⟩
        rcases List.mem_append.mp hf with hf | hf
        · exact hmax f hf hfk
        · rw [List.mem_singleton.mp hf] at hfk
          exact absurd hfk hk
      · rintro ⟨i, hi, hv, hmax⟩
        refine ⟨i, ?_, hv, fun f hf => hmax f (List.mem_append_left _ hf)⟩
        rcases List.mem_append.mp hi with hi | hi
        · exact hi
        · rw [← List.mem_singleton.mp hi] at hk
          exact absurd hv hk

theorem getElem?_foldl_insertIfNew (l : List (K × V)) (m : ExtTreeMap K V) (k : K)
    (hd : l.Pairwise fun a b => ¬ compare a.1 b.1 = .eq) (hm : ∀ e ∈ l, m[e.1]? = none) (v : V) :
    (l.foldl (fun m e => m.insertIfNew e.1 e.2) m)[k]? = some v ↔
      (k, v) ∈ l ∨ m[k]? = some v := by
  induction l generalizing m with
  | nil => simp
  | cons e l ih =>
    obtain ⟨hne, hd⟩ := List.pairwise_cons.mp hd
    have he : e.1 ∉ m := by
      rw [ExtTreeMap.mem_iff_isSome_getElem?, hm e (List.mem_cons_self ..)]
      simp
    rw [List.foldl_cons, ih _ hd, ExtTreeMap.getElem?_insertIfNew]
    · by_cases hk : e.1 = k
      · subst hk
        have hv : (e.1, v) ∉ l := fun hmem => hne _ hmem (ReflOrd.compare_self ..)
        simp only [he, ReflOrd.compare_self, not_false_eq_true, and_self, if_true, hv, false_or,
          Option.some.injEq, List.mem_cons, or_false, hm e (List.mem_cons_self ..), reduceCtorEq]
        exact ⟨fun h => h ▸ rfl, fun h => (Prod.ext_iff.mp h).2.symm⟩
      · have hc : compare e.1 k ≠ .eq := fun h => hk (LawfulEqOrd.eq_of_compare h)
        have hkv : (k, v) ≠ e := fun h => hk (by rw [← h])
        simp only [hc, false_and, if_false, List.mem_cons, hkv, false_or]
    · intro f hf
      rw [ExtTreeMap.getElem?_insertIfNew, if_neg (fun h => hne f hf h.1)]
      exact hm f (List.mem_cons_of_mem _ hf)

theorem foldl_insertIfNew_toList (m : ExtTreeMap K V) :
    m.toList.foldl (fun m e => m.insertIfNew e.1 e.2) ∅ = m := by
  apply ExtTreeMap.ext_getElem?
  intro k
  apply Option.ext
  intro v
  rw [getElem?_foldl_insertIfNew _ _ _ ExtTreeMap.distinct_keys_toList (fun _ _ =>
    ExtTreeMap.getElem?_empty), ExtTreeMap.mem_toList_iff_getElem?_eq_some]
  simp

theorem eq_of_ordered {α : Type} (key : α → K) {l l' : List α}
    (h : l.Pairwise fun a b => compare (key a) (key b) = .lt)
    (h' : l'.Pairwise fun a b => compare (key a) (key b) = .lt) (hmem : ∀ a, a ∈ l ↔ a ∈ l') :
    l = l' := by
  have hirrefl : Std.Irrefl fun a b : α => compare (key a) (key b) = .lt :=
    ⟨fun a ha => by rw [ReflOrd.compare_self] at ha; cases ha⟩
  have hanti : Std.Antisymm fun a b : α => compare (key a) (key b) = .lt :=
    ⟨fun a b hab hba => by rw [OrientedOrd.eq_swap, hab] at hba; cases hba⟩
  exact h.eq_of_mem_iff h' hmem

omit [TransOrd K] in
theorem nodup_of_ordered {α : Type} (key : α → K) {l : List α}
    (h : l.Pairwise fun a b => compare (key a) (key b) = .lt) : l.Nodup := by
  refine h.imp ?_
  rintro a b hab rfl
  rw [ReflOrd.compare_self] at hab
  cases hab

theorem toList_foldl_insertIfNew {l : List (K × V)}
    (h : l.Pairwise fun a b => compare a.1 b.1 = .lt) :
    (l.foldl (fun m e => m.insertIfNew e.1 e.2) (∅ : ExtTreeMap K V)).toList = l := by
  refine eq_of_ordered Prod.fst ExtTreeMap.ordered_keys_toList h ?_
  rintro ⟨k, v⟩
  have hd : l.Pairwise fun a b => ¬ compare a.1 b.1 = .eq := by
    refine h.imp ?_
    intro a b hab
    rw [hab]
    decide
  rw [ExtTreeMap.mem_toList_iff_getElem?_eq_some, getElem?_foldl_insertIfNew l ∅ k hd
    fun _ _ => ExtTreeMap.getElem?_empty]
  simp

theorem subperm_foldl_insertIfNew (l : List (K × V)) :
    (l.foldl (fun m e => m.insertIfNew e.1 e.2) (∅ : ExtTreeMap K V)).toList.Subperm l := by
  apply List.subperm_of_subset (nodup_of_ordered Prod.fst ExtTreeMap.ordered_keys_toList)
  rintro ⟨k, v⟩ hmem
  rw [ExtTreeMap.mem_toList_iff_getElem?_eq_some] at hmem
  rcases mem_of_foldl_insertIfNew hmem with hl | hempty
  · exact hl
  · rw [ExtTreeMap.getElem?_empty] at hempty
    cases hempty

theorem mem_foldl_insert (l : List K) (s : ExtTreeSet K) (k : K) :
    k ∈ l.foldl (fun s k => s.insert k) s ↔ k ∈ l ∨ k ∈ s := by
  induction l generalizing s with
  | nil => simp
  | cons a l ih =>
    rw [List.foldl_cons, ih, ExtTreeSet.mem_insert, LawfulEqOrd.compare_eq_iff_eq,
      List.mem_cons, eq_comm]
    tauto

theorem foldl_insert_toList (s : ExtTreeSet K) :
    s.toList.foldl (fun s k => s.insert k) ∅ = s := by
  apply ExtTreeSet.ext_mem
  intro k
  rw [mem_foldl_insert, ExtTreeSet.mem_toList]
  simp

theorem toList_foldl_insert {l : List K} (h : l.Pairwise fun a b => compare a b = .lt) :
    (l.foldl (fun s k => s.insert k) (∅ : ExtTreeSet K)).toList = l := by
  refine eq_of_ordered (fun k => k) ExtTreeSet.ordered_toList h ?_
  intro k
  rw [ExtTreeSet.mem_toList, mem_foldl_insert]
  simp

theorem subperm_foldl_insert (l : List K) :
    (l.foldl (fun s k => s.insert k) (∅ : ExtTreeSet K)).toList.Subperm l := by
  apply List.subperm_of_subset (nodup_of_ordered (fun k => k) ExtTreeSet.ordered_toList)
  intro k hmem
  rw [ExtTreeSet.mem_toList, mem_foldl_insert] at hmem
  simpa using hmem

end Overlay

structure KeyedMap (K V : Type) [Ord K] [TransOrd K] [LawfulEqOrd K] (key : V → K) where
  map : ExtTreeMap K V
  keyed : ∀ k v, map[k]? = some v → key v = k

namespace KeyedMap

variable {K V : Type} [Ord K] [TransOrd K] [LawfulEqOrd K] {key : V → K}

def empty : KeyedMap K V key := ⟨∅, fun k v h => by simp at h⟩

instance : EmptyCollection (KeyedMap K V key) := ⟨empty⟩

def find? (m : KeyedMap K V key) (k : K) : Option V := m.map[k]?

def insert (m : KeyedMap K V key) (v : V) : KeyedMap K V key :=
  ⟨m.map.insert (key v) v, fun k w h => by
    rcases getElem?_insert_cases h with ⟨hk, hw⟩ | hold
    · rw [hk, hw]
    · exact m.keyed k w hold⟩

def emplace (m : KeyedMap K V key) (v : V) : KeyedMap K V key :=
  ⟨m.map.insertIfNew (key v) v, fun k w h => by
    rw [ExtTreeMap.getElem?_insertIfNew] at h
    split_ifs at h with hk
    · rw [← Option.some.inj h, LawfulEqOrd.eq_of_compare hk.1]
    · exact m.keyed k w h⟩

def mapValues (m : KeyedMap K V key) (f : V → V) (hf : ∀ v, key (f v) = key v) :
    KeyedMap K V key :=
  ⟨m.map.map fun _ v => f v, fun k w h => by
    rw [ExtTreeMap.getElem?_map, Option.map_eq_some_iff] at h
    obtain ⟨v, hv, rfl⟩ := h
    rw [hf, m.keyed k v hv]⟩

def values (m : KeyedMap K V key) : List V := m.map.toList.map Prod.snd

def size (m : KeyedMap K V key) : Nat := m.map.size

@[simp] theorem size_empty : (∅ : KeyedMap K V key).size = 0 := ExtTreeMap.size_empty

theorem size_emplace_le (m : KeyedMap K V key) (v : V) : (m.emplace v).size ≤ m.size + 1 :=
  ExtTreeMap.size_insertIfNew_le

@[ext] theorem ext {m m' : KeyedMap K V key} (h : ∀ k, m.find? k = m'.find? k) : m = m' := by
  cases m
  cases m'
  congr
  exact ExtTreeMap.ext_getElem? h

theorem find?_insert (m : KeyedMap K V key) (v : V) (k : K) [DecidableEq K] :
    (m.insert v).find? k = if key v = k then some v else m.find? k := by
  rw [find?, insert, ExtTreeMap.getElem?_insert]
  simp only [LawfulEqOrd.compare_eq_iff_eq]
  rfl

theorem find?_emplace_of_some {m : KeyedMap K V key} {v w : V} {k : K} (h : m.find? k = some w) :
    (m.emplace v).find? k = some w := by
  rw [find?, emplace, ExtTreeMap.getElem?_insertIfNew, if_neg]
  · exact h
  · rintro ⟨hk, hn⟩
    obtain rfl := LawfulEqOrd.eq_of_compare hk
    refine hn (ExtTreeMap.mem_iff_isSome_getElem?.mpr ?_)
    rw [show m.map[key v]? = some w from h]
    rfl

theorem find?_emplace (m : KeyedMap K V key) (v : V) (k : K) [DecidableEq K] :
    (m.emplace v).find? k =
      if key v = k then some ((m.find? k).getD v) else m.find? k := by
  split_ifs with hk
  · rcases h : m.find? k with _ | w
    · rw [find?, emplace, ExtTreeMap.getElem?_insertIfNew, if_pos]
      · rfl
      · refine ⟨LawfulEqOrd.compare_eq_iff_eq.mpr hk, fun hmem => ?_⟩
        rw [hk, ExtTreeMap.mem_iff_isSome_getElem?, show m.map[k]? = none from h] at hmem
        cases hmem
    · exact find?_emplace_of_some h
  · rw [find?, emplace, ExtTreeMap.getElem?_insertIfNew, if_neg fun h => hk
      (LawfulEqOrd.eq_of_compare h.1)]
    rfl

theorem find?_insert_cases {m : KeyedMap K V key} {v w : V} {k : K}
    (h : (m.insert v).find? k = some w) : k = key v ∧ w = v ∨ m.find? k = some w :=
  getElem?_insert_cases h

theorem find?_emplace_cases {m : KeyedMap K V key} {v w : V} {k : K}
    (h : (m.emplace v).find? k = some w) : k = key v ∧ w = v ∨ m.find? k = some w := by
  rw [find?, emplace, ExtTreeMap.getElem?_insertIfNew] at h
  split_ifs at h with hk
  · exact .inl ⟨(LawfulEqOrd.eq_of_compare hk.1).symm, (Option.some.inj h).symm⟩
  · exact .inr h

theorem emplace_of_some [DecidableEq K] {m : KeyedMap K V key} {v w : V}
    (h : m.find? (key v) = some w) : m.emplace v = m := by
  ext k : 1
  rw [find?_emplace]
  split_ifs with hk
  · rw [← hk, h, Option.getD_some]
  · rfl

theorem insert_comm [DecidableEq K] (m : KeyedMap K V key) {v w : V} (h : key v ≠ key w) :
    (m.insert v).insert w = (m.insert w).insert v := by
  ext k : 1
  simp only [find?_insert]
  split_ifs with hw hv
  · exact absurd (hv.trans hw.symm) h
  all_goals rfl

theorem insert_insert_self [DecidableEq K] (m : KeyedMap K V key) (v : V) :
    (m.insert v).insert v = m.insert v := by
  ext k : 1
  simp only [find?_insert]
  split_ifs <;> rfl

theorem insert_inj [DecidableEq K] {m : KeyedMap K V key} {v w : V} (h : key v = key w) :
    m.insert v = m.insert w ↔ v = w := by
  constructor
  · intro heq
    have hfind := congrArg (fun n => n.find? (key w)) heq
    simp only [find?_insert, h, if_true, Option.some.injEq] at hfind
    exact hfind
  · intro heq
    rw [heq]

theorem emplace_comm [DecidableEq K] (m : KeyedMap K V key) {v w : V} (h : key v ≠ key w) :
    (m.emplace v).emplace w = (m.emplace w).emplace v := by
  ext k : 1
  simp only [find?_emplace]
  split_ifs with hw hv
  · exact absurd (hv.trans hw.symm) h
  all_goals rfl

@[simp] theorem find?_mapValues (m : KeyedMap K V key) (f : V → V) (hf : ∀ v, key (f v) = key v)
    (k : K) : (m.mapValues f hf).find? k = (m.find? k).map f := ExtTreeMap.getElem?_map

theorem toList_map (m : KeyedMap K V key) :
    m.map.toList = m.values.map fun v => (key v, v) := by
  rw [values, List.map_map]
  conv_lhs => rw [← List.map_id m.map.toList]
  apply List.map_congr_left
  intro e he
  have hk := m.keyed e.1 e.2 (ExtTreeMap.mem_toList_iff_getElem?_eq_some.mp he)
  simp only [id_eq, Function.comp_apply, hk]

theorem foldl_insert_values (m : KeyedMap K V key) (f : V → V) (hf : ∀ v, key (f v) = key v) :
    m.values.foldl (fun m v => m.insert (f v)) m = m.mapValues f hf := by
  have hmap : ∀ (l : List V) (m : KeyedMap K V key), (l.foldl (fun m v => m.insert (f v)) m).map =
      overlay (l.map fun v => (key v, f v)) m.map := by
    intro l
    induction l with
    | nil => exact fun _ => rfl
    | cons v l ih =>
      intro m
      have hinsert : (m.insert (f v)).map = m.map.insert (key v) (f v) :=
        congrArg (fun k => m.map.insert k (f v)) (hf v)
      rw [List.foldl_cons, ih, hinsert]
      rfl
  have hentries : m.values.map (fun v => (key v, f v)) =
      m.map.toList.map fun e => (e.1, f e.2) := by
    rw [toList_map, List.map_map]
    rfl
  have hresult : (m.values.foldl (fun m v => m.insert (f v)) m).map = (m.mapValues f hf).map := by
    rw [hmap, hentries, overlay_toList_map]
    rfl
  ext k
  rw [find?, find?, hresult]

theorem mem_values {m : KeyedMap K V key} {v : V} : v ∈ m.values ↔ m.find? (key v) = some v := by
  rw [find?, ← ExtTreeMap.mem_toList_iff_getElem?_eq_some, toList_map, List.mem_map]
  constructor
  · exact fun h => ⟨v, h, rfl⟩
  · rintro ⟨w, hw, h⟩
    obtain rfl : w = v := (Prod.ext_iff.mp h).2
    exact hw

theorem mem_values_emplace [DecidableEq K] {m : KeyedMap K V key} {v w : V}
    (h : m.find? (key v) = none) : w ∈ (m.emplace v).values ↔ w = v ∨ w ∈ m.values := by
  rw [mem_values, mem_values, find?_emplace]
  split_ifs with hk
  · rw [← hk, h, Option.getD_none, Option.some.injEq]
    constructor
    · intro hw
      exact .inl hw.symm
    · rintro (rfl | hw)
      · rfl
      · cases hw
  · constructor
    · exact .inr
    · rintro (rfl | hw)
      · exact absurd rfl hk
      · exact hw

theorem map_foldl_emplace (l : List V) (m : KeyedMap K V key) : (l.foldl emplace m).map =
    (l.map fun v => (key v, v)).foldl (fun m e => m.insertIfNew e.1 e.2) m.map := by
  induction l generalizing m with
  | nil => rfl
  | cons v l ih => exact ih (m.emplace v)

theorem foldl_emplace_values (m : KeyedMap K V key) : m.values.foldl emplace ∅ = m := by
  ext k : 1
  rw [find?, find?, map_foldl_emplace, ← toList_map]
  exact congrArg (·[k]?) (foldl_insertIfNew_toList m.map)

theorem ordered_values (m : KeyedMap K V key) :
    m.values.Pairwise fun v w => compare (key v) (key w) = .lt := by
  have h : m.map.toList.Pairwise fun a b => compare a.1 b.1 = .lt := ExtTreeMap.ordered_keys_toList
  rwa [toList_map, List.pairwise_map] at h

theorem values_foldl_emplace {l : List V}
    (h : l.Pairwise fun v w => compare (key v) (key w) = .lt) :
    (l.foldl emplace (∅ : KeyedMap K V key)).values = l := by
  have hmap := map_foldl_emplace l (∅ : KeyedMap K V key)
  have hl : (l.map fun v => (key v, v)).Pairwise fun a b => compare a.1 b.1 = .lt := by
    rwa [List.pairwise_map]
  have hlist := toList_foldl_insertIfNew hl
  rw [values, hmap]
  refine (congrArg (List.map Prod.snd) hlist).trans ?_
  rw [List.map_map]
  exact List.map_id l

theorem subperm_foldl_emplace (l : List V) :
    (l.foldl emplace (∅ : KeyedMap K V key)).values.Subperm l := by
  apply List.subperm_of_subset (nodup_of_ordered key (ordered_values _))
  intro v hv
  have hmap := map_foldl_emplace l (∅ : KeyedMap K V key)
  rw [mem_values, find?, hmap] at hv
  rcases mem_of_foldl_insertIfNew hv with hl | hempty
  · obtain ⟨w, hw, he⟩ := List.mem_map.mp hl
    obtain rfl : w = v := (Prod.ext_iff.mp he).2
    exact hw
  · cases hempty.symm.trans ExtTreeMap.getElem?_empty

end KeyedMap
