import InterferenceObservatory.SaveLoad
import InterferenceObservatory.Steps

/-! What survives a load: a failed one may have replaced the state all the same, and a
successful one leaves the old matrix cells that the file says nothing about. -/

namespace Iobs
open Std Impl

/-- Of the files that cannot be loaded, exactly those without a payload of version 1 leave
every state as it was: past the version byte everything has been replaced already. -/
theorem load_failure_keeps_iff {file : Option (List UInt8)} {S₀ : Impl Double}
    (hbad : (S₀.load file).1 ≠ .ok) :
    (∀ S : Impl Double, (S.load file).1 ≠ .ok → (S.load file).2 = S) ↔
      ∀ payload, payloadOf file = some payload → payload.head? ≠ some 1 := by
  constructor
  · intro hkeep payload hp hv
    obtain ⟨status, st₀, l, -, -, hload⟩ := load_uniform hp hv
    rw [hload] at hbad
    -- an observatory with another identity than the one in the file cannot be kept
    let S : Impl Double := Impl.fresh ⟨st₀.id.value + 1⟩ ⟨0⟩
    have hfail : (S.load file).1 ≠ .ok := by
      rw [hload]
      exact hbad
    have hid := congrArg Impl.id (hkeep S hfail)
    rw [hload] at hid
    have hval : st₀.id.value = st₀.id.value + 1 := congrArg Id.value hid
    exact absurd (UInt64.left_eq_add.mp hval) (by decide)
  · intro hrefused S _
    rw [load_refused hrefused S]

theorem load_failure_keeps_iff_version :
    (Demo.published.load (Persist.encode [2]).toOption).2 = Demo.published := by
  have hbad : (Demo.published.load (Persist.encode [2]).toOption).1 ≠ .ok := by decide +kernel
  have hrefused : ∀ payload, payloadOf (Persist.encode [2]).toOption = some payload →
      payload.head? ≠ some 1 := by
    have henc := Persist.encode_ok (show ([2] : List UInt8).length ≤ Persist.kMaxPayload by decide)
    intro payload hp
    rw [henc] at hp
    rw [← Option.some.inj ((payloadOf_encode henc).symm.trans hp)]
    decide
  exact (load_failure_keeps_iff hbad).mpr hrefused _ hbad

theorem load_failure_loses_baseline :
    ¬ ∀ (S : Impl Double) (file : Option (List UInt8)),
      (S.load file).1 ≠ .ok → (S.load file).2 = S := by
  intro h
  have hkept := h Demo.published (Persist.encode [1]).toOption (by decide +kernel)
  have hsize := congrArg (fun S => S.baselines.size) hkept
  exact absurd hsize (by decide +kernel)

def fileCells (file : Option (List UInt8)) : List CellKey :=
  match payloadOf file with
  | none => []
  | some payload => payloadCells payload

theorem overlay_eq_iff {l : List (CellKey × PairwiseInterference Double)}
    {m m' : ExtTreeMap CellKey (PairwiseInterference Double)} :
    overlay l m = overlay l m' ↔ ∀ k ∉ l.map Prod.fst, m[k]? = m'[k]? := by
  constructor
  · intro h k hk
    rw [← overlay_of_notMem hk, h, overlay_of_notMem hk]
  · intro h
    apply ExtTreeMap.ext_getElem?
    intro k
    by_cases hk : k ∈ l.map Prod.fst
    · exact overlay_of_mem hk m m'
    · rw [overlay_of_notMem hk, overlay_of_notMem hk, h k hk]

/-- Two observatories agree after loading an accepted file exactly if their matrices
agreed on every cell the file holds no comparison of. -/
theorem load_forgets_iff {file : Option (List UInt8)} {S₁ : Impl Double}
    (hok : (S₁.load file).1 = .ok) (S₂ : Impl Double) :
    S₁.load file = S₂.load file ↔ ∀ k ∉ fileCells file, S₁.matrix[k]? = S₂.matrix[k]? := by
  by_cases hv : ∃ payload, payloadOf file = some payload ∧ payload.head? = some 1
  · obtain ⟨payload, hp, hv⟩ := hv
    obtain ⟨status, st₀, l, -, hcells, hload⟩ := load_uniform hp hv
    have hfile : fileCells file = l.map Prod.fst := by rw [fileCells, hp, hcells]
    rw [hload, hload, hfile, ← overlay_eq_iff]
    constructor
    · intro h
      exact congrArg (fun r : Status × Impl Double => r.2.matrix) h
    · intro h
      rw [h]
  · rw [load_refused (fun payload hp hv' => hv ⟨payload, hp, hv'⟩) S₁] at hok
    cases hok

def comparedFile : Option (List UInt8) :=
  (Persist.encode (serializeState (Demo.compared : Impl Double))).toOption

theorem foldl_cells (l : List (ComparisonId × PairwiseInterference Double))
    (cells : List CellKey) :
    l.foldl (fun cells e => cellSink.comparison e cells) cells =
      cells ++ l.map fun e => e.2.cellKey := by
  induction l generalizing cells with
  | nil => exact (List.append_nil cells).symm
  | cons e l ih =>
    rw [List.foldl_cons, ih, List.map_cons]
    exact List.append_assoc ..

theorem payloadCells_serializeState {st : Impl Double} (h : st.Fits) :
    payloadCells (serializeState st) = (replayedCells st).map Prod.fst := by
  have hrun : replay cellSink st [] = st.comparisons.toList.map fun e => e.2.cellKey := by
    unfold replay replaySections
    dsimp only
    rw [foldl_cells]
    simp only [cellSink, id_eq, List.foldl_fixed, List.nil_append]
  rw [payloadCells, readBody_serializeState cellSink h, replayedCells, List.map_map]
  exact hrun

theorem compared_cell {k : CellKey} (hk : k ≠ ⟨⟨1⟩, ⟨2⟩, .cache⟩) :
    (Demo.compared : Impl Double).matrix[k]? = none := by
  have hempty : (Demo.published : Impl Double).matrix[k]? = none := ExtTreeMap.getElem?_empty
  rcases (Demo.published : Impl Double).compare_cases Demo.victim Demo.neighbor .cache
    Demo.slowdown .init with ⟨u, -, heq⟩ | ⟨hsame, -⟩
  · rw [Demo.compared, heq, recordVerdict_matrix, ExtTreeMap.getElem?_insert, if_neg, hempty]
    exact fun h => hk (LawfulEqOrd.eq_of_compare h).symm
  · rw [Demo.compared, hsame, hempty]

theorem load_forgets_iff_compared :
    Demo.compared.load comparedFile = (Impl.fresh ⟨1⟩ ⟨1⟩).load comparedFile := by
  have hlen : (serializeState (Demo.compared : Impl Double)).length ≤ Persist.kMaxPayload := by
    decide +kernel
  have hfits : (Demo.compared : Impl Double).Fits := by decide +kernel
  have henc := Persist.encode_ok hlen
  have hok : (Demo.compared.load comparedFile).1 = .ok := by
    rw [comparedFile, henc]
    exact (load_encoded_status henc Demo.compared).mpr hfits
  have hcell : (⟨⟨1⟩, ⟨2⟩, .cache⟩ : CellKey) ∈ fileCells comparedFile := by
    rw [fileCells, comparedFile, henc, Except.toOption, payloadOf_encode henc]
    dsimp only
    rw [payloadCells_serializeState hfits]
    decide +kernel
  refine (load_forgets_iff hok (Impl.fresh ⟨1⟩ ⟨1⟩)).mpr fun k hk => ?_
  have hne : k ≠ ⟨⟨1⟩, ⟨2⟩, .cache⟩ := fun h => hk (h ▸ hcell)
  exact (compared_cell hne).trans ExtTreeMap.getElem?_empty.symm

def blankFile : Option (List UInt8) :=
  (Persist.encode (serializeState (Impl.fresh ⟨7⟩ ⟨7⟩))).toOption

theorem load_blankFile (S : Impl Double) :
    S.load blankFile = (.ok, { Impl.fresh ⟨7⟩ ⟨7⟩ with matrix := S.matrix }) := by
  have hlen : (serializeState (Impl.fresh ⟨7⟩ ⟨7⟩)).length ≤ Persist.kMaxPayload := by
    decide +kernel
  have henc := Persist.encode_ok hlen
  rw [blankFile, henc]
  exact load_encoded (fits_fresh _ _) henc S

theorem load_keeps_old_cell :
    ¬ ∀ (file : Option (List UInt8)) (S₁ S₂ : Impl Double), (S₁.load file).1 = .ok →
      (S₂.load file).1 = .ok → S₁.load file = S₂.load file := by
  intro h
  have hok (S : Impl Double) : (S.load blankFile).1 = .ok := by rw [load_blankFile]
  have heq := h blankFile Demo.published Demo.compared (hok _) (hok _)
  rw [load_blankFile, load_blankFile] at heq
  have hsize := congrArg (fun r : Status × Impl Double => r.2.matrix.size) heq
  exact absurd hsize (by decide +kernel)

end Iobs
