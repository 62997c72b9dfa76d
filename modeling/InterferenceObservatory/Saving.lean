import InterferenceObservatory.SaveLoad
import InterferenceObservatory.Lib.Run

/-! `save` step by step. Every call it makes can fail or throw, the process can end between
any two of them, and bytes reach the temporary file a few at a time. Only the rename touches
the file itself, and it moves a complete envelope. -/

namespace Iobs
open Runs

def Files.rename (fs : Files) (source target : String) : Option Files :=
  (fs source).map fun bytes => (fs.remove source).write target bytes

inductive SavePoint where
  | serializing
  | opening (encoded : List UInt8)
  /-- The first bytes, as many as are counted, are in the temporary file. -/
  | writing (encoded : List UInt8) (count : Nat)
  | flushed
  | cleaning
  | returned (status : Status)

inductive SaveEvent where
  | succeeds
  | fails
  | throws
  /-- Further bytes reach the temporary file before the stream is flushed. -/
  | arrives (count : Nat)

namespace Impl

def tmpOf (path : String) : String := path ++ ".tmp"

def saveStep (st : Impl Double) (path : String) : SavePoint × Files → SaveEvent →
    Option (SavePoint × Files)
  | (.serializing, fs), .succeeds =>
    match Persist.encode (serializeState st) with
    | .error e => some (.returned e.status, fs)
    | .ok encoded => some (.opening encoded, fs)
  | (.opening encoded, fs), .succeeds => some (.writing encoded 0, fs.write (tmpOf path) [])
  | (.opening _, fs), .fails => some (.returned .persistenceCorrupt, fs)
  | (.writing encoded count, fs), .arrives more =>
    some (.writing encoded (count + more), fs.write (tmpOf path) (encoded.take (count + more)))
  -- the stream is good after the flush once nothing is left to write
  | (.writing encoded count, fs), .succeeds =>
    if encoded.length ≤ count then some (.flushed, fs) else none
  | (.writing _ _, fs), .fails => some (.cleaning, fs)
  | (.flushed, fs), .succeeds =>
    (fs.rename (tmpOf path) path).map fun fs' => (.returned .ok, fs')
  | (.flushed, fs), .fails => some (.cleaning, fs)
  | (.cleaning, fs), .succeeds => some (.returned .persistenceCorrupt, fs.remove (tmpOf path))
  -- an exception that is not an `Error` ends in the second handler
  | (.serializing, fs), .throws => some (.returned .resourceExhausted, fs)
  | (.opening _, fs), .throws => some (.returned .resourceExhausted, fs)
  | (.flushed, fs), .throws => some (.returned .resourceExhausted, fs)
  | (.cleaning, fs), .throws => some (.returned .resourceExhausted, fs)
  | _, _ => none

abbrev SaveRun (st : Impl Double) (path : String) (fs : Files) (events : List SaveEvent)
    (c : SavePoint × Files) : Prop :=
  Run (st.saveStep path) (fun _ _ => True) (.serializing, fs) events c

theorem tmpOf_ne (path : String) : tmpOf path ≠ path := by
  intro h
  have hlen := congrArg String.length h
  rw [tmpOf, String.length_append] at hlen
  have htmp : String.length ".tmp" = 4 := by decide
  omega

theorem write_tmp (fs : Files) (path : String) (bytes : List UInt8) :
    fs.write (tmpOf path) bytes path = fs path := Function.update_of_ne (tmpOf_ne path).symm ..

theorem remove_tmp (fs : Files) (path : String) : fs.remove (tmpOf path) path = fs path :=
  Function.update_of_ne (tmpOf_ne path).symm ..

def Complete (st : Impl Double) (file : Option (List UInt8)) : Prop :=
  ∃ encoded, Persist.encode (serializeState st) = .ok encoded ∧ file = some encoded

def SaveHolds (st : Impl Double) (path : String) (fs₀ : Files) : SavePoint × Files → Prop
  | (.serializing, fs) => fs path = fs₀ path
  | (.opening encoded, fs) =>
    fs path = fs₀ path ∧ Persist.encode (serializeState st) = .ok encoded
  | (.writing encoded count, fs) =>
    fs path = fs₀ path ∧ Persist.encode (serializeState st) = .ok encoded ∧
      fs (tmpOf path) = some (encoded.take count)
  | (.flushed, fs) => fs path = fs₀ path ∧ st.Complete (fs (tmpOf path))
  | (.cleaning, fs) => fs path = fs₀ path
  | (.returned status, fs) => if status = .ok then st.Complete (fs path) else fs path = fs₀ path

theorem encode_error {payload : List UInt8} {e : Persist.Error}
    (h : Persist.encode payload = .error e) : e.status ≠ .ok := by
  unfold Persist.encode at h
  split_ifs at h
  obtain rfl := Except.error.inj h
  decide

theorem saveStep_holds {st : Impl Double} {path : String} {fs₀ : Files} {c c' : SavePoint × Files}
    {e : SaveEvent} (hs : st.saveStep path c e = some c') (h : st.SaveHolds path fs₀ c) :
    st.SaveHolds path fs₀ c' := by
  obtain ⟨point, fs⟩ := c
  cases point with
  | serializing =>
    cases e with
    | succeeds =>
      unfold saveStep at hs
      rcases henc : Persist.encode (serializeState st) with e | encoded
      · rw [henc] at hs
        obtain rfl := Option.some.inj hs
        exact (if_neg (encode_error henc)).mpr h
      · rw [henc] at hs
        obtain rfl := Option.some.inj hs
        exact ⟨h, henc⟩
    | throws =>
      obtain rfl := Option.some.inj hs
      exact h
    | _ => cases hs
  | opening encoded =>
    obtain ⟨hold, henc⟩ := h
    cases e with
    | succeeds =>
      obtain rfl := Option.some.inj hs
      exact ⟨(write_tmp fs path []).trans hold, henc, Function.update_self ..⟩
    | arrives => cases hs
    | _ =>
      obtain rfl := Option.some.inj hs
      exact hold
  | writing encoded count =>
    obtain ⟨hold, henc, htmp⟩ := h
    cases e with
    | succeeds =>
      simp only [saveStep] at hs
      split_ifs at hs with hall
      obtain rfl := Option.some.inj hs
      rw [List.take_of_length_le hall] at htmp
      exact ⟨hold, encoded, henc, htmp⟩
    | fails =>
      obtain rfl := Option.some.inj hs
      exact hold
    | throws => cases hs
    | arrives more =>
      obtain rfl := Option.some.inj hs
      exact ⟨(write_tmp fs path _).trans hold, henc, Function.update_self ..⟩
  | flushed =>
    obtain ⟨hold, encoded, henc, htmp⟩ := h
    cases e with
    | succeeds =>
      -- the rename moves what the temporary file holds
      simp only [saveStep, Files.rename, htmp, Option.map_some, Option.some.injEq] at hs
      subst hs
      exact ⟨encoded, henc, Function.update_self ..⟩
    | arrives => cases hs
    | _ =>
      obtain rfl := Option.some.inj hs
      exact hold
  | cleaning =>
    cases e with
    | succeeds =>
      obtain rfl := Option.some.inj hs
      exact (remove_tmp fs path).trans h
    | throws =>
      obtain rfl := Option.some.inj hs
      exact h
    | _ => cases hs
  | returned status => cases hs

theorem SaveRun.holds {st : Impl Double} {path : String} {fs : Files} {events : List SaveEvent}
    {c : SavePoint × Files} (hr : st.SaveRun path fs events c) : st.SaveHolds path fs c := by
  refine hr.invariant rfl ?_
  intro c e c' _ hs h
  exact saveStep_holds hs h

theorem write_write (fs : Files) (path : String) (bytes bytes' : List UInt8) :
    (fs.write path bytes).write path bytes' = fs.write path bytes' := Function.update_idem ..

theorem save_run (st : Impl Double) (path : String) (io : Io) (fs : Files) :
    ∃ events, st.SaveRun path fs events
      (.returned (st.save path io fs).1, st.saved path io fs) := by
  have hrun : ∀ {events c}, exec (st.saveStep path) (.serializing, fs) events = some c →
      st.SaveRun path fs events c := fun h => Run.of_exec (fun _ _ => trivial) h
  unfold saved save
  rcases henc : Persist.encode (serializeState st) with e | encoded
  · refine ⟨[.succeeds], hrun ?_⟩
    simp only [exec, saveStep, henc, Option.bind_some]
    rfl
  · dsimp only
    rcases hopens : io.opens with _ | _
    · refine ⟨[.succeeds, .fails], hrun ?_⟩
      simp only [exec, saveStep, henc, Option.bind_some]
      rfl
    rcases hwrites : io.writes with _ | _
    · refine ⟨[.succeeds, .succeeds, .arrives io.written, .fails, .succeeds], hrun ?_⟩
      simp only [exec, saveStep, henc, Option.bind_some, write_write, Nat.zero_add]
      rfl
    have hflushed : st.SaveRun path fs
        [.succeeds, .succeeds, .arrives encoded.length, .succeeds]
        (.flushed, fs.write (tmpOf path) encoded) := by
      apply hrun
      simp [exec, saveStep, henc, write_write]
    rcases hrenames : io.renames with _ | _
    · have hcleaning : st.SaveRun path fs
          ([.succeeds, .succeeds, .arrives encoded.length, .succeeds] ++ [.fails])
          (.cleaning, fs.write (tmpOf path) encoded) := .next hflushed trivial rfl
      exact ⟨_, .next (a := .succeeds) hcleaning trivial rfl⟩
    · refine ⟨_, .next (a := .succeeds) hflushed trivial ?_⟩
      have htmp : fs.write (tmpOf path) encoded (tmpOf path) = some encoded :=
        Function.update_self ..
      simp only [saveStep, Files.rename, htmp, Option.map_some]
      rfl

end Impl

/-- At every point of a call of `save`, wherever it fails or stops, the file is what it was or
the complete envelope of the state; it is the latter when the call returns with success and
the former when it returns with any other status. -/
theorem save_atomic (st : Impl Double) (path : String) (fs : Files) (events : List SaveEvent)
    (point : SavePoint) (fs' : Files) (hr : st.SaveRun path fs events (point, fs')) :
    (fs' path = fs path ∨ st.Complete (fs' path)) ∧
    (point = .returned .ok → st.Complete (fs' path)) ∧
    ∀ status, point = .returned status → status ≠ .ok → fs' path = fs path := by
  have h := hr.holds
  refine ⟨?_, ?_, ?_⟩
  · cases point with
    | returned status =>
      simp only [Impl.SaveHolds] at h
      split_ifs at h
      · exact .inr h
      · exact .inl h
    | serializing => exact .inl h
    | cleaning => exact .inl h
    | _ => exact .inl h.1
  · rintro rfl
    exact h
  · rintro status rfl hne
    exact (if_neg hne).mp h

def Demo.older : Files := fun path => if path = "state" then some [1] else none

theorem save_atomic_compared :
    (∃ after, (Demo.compared : Impl Double).SaveRun "state" Demo.older
      [.succeeds, .succeeds, .arrives 20, .fails, .succeeds]
        (.returned .persistenceCorrupt, after) ∧
      after "state" = some [1]) ∧
    ∃ events after, (Demo.compared : Impl Double).SaveRun "state" Demo.older events
      (.returned .ok, after) ∧ (Demo.compared : Impl Double).Complete (after "state") := by
  constructor
  · have hlen : (serializeState (Demo.compared : Impl Double)).length ≤ Persist.kMaxPayload := by
      decide +kernel
    obtain ⟨after, hexec⟩ : ∃ after, exec ((Demo.compared : Impl Double).saveStep "state")
        (.serializing, Demo.older) [.succeeds, .succeeds, .arrives 20, .fails, .succeeds] =
          some (.returned .persistenceCorrupt, after) := by
      simp only [exec, Impl.saveStep, Persist.encode_ok hlen, Option.bind_some]
      exact ⟨_, rfl⟩
    have hr : (Demo.compared : Impl Double).SaveRun "state" Demo.older _ _ :=
      Run.of_exec (fun _ _ => trivial) hexec
    exact ⟨after, hr, (save_atomic _ _ _ _ _ _ hr).2.2 _ rfl (by decide)⟩
  · obtain ⟨events, hr⟩ := Impl.save_run Demo.compared "state" ⟨true, true, 0, true⟩ Demo.older
    have hok : (Demo.compared.save "state" ⟨true, true, 0, true⟩ Demo.older).1 = .ok := by
      decide +kernel
    rw [hok] at hr
    exact ⟨events, _, hr, (save_atomic _ _ _ _ _ _ hr).2.1 rfl⟩

end Iobs
