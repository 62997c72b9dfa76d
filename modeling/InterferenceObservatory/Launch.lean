import InterferenceObservatory.Streams
import Mathlib.Data.List.TakeWhile

/-! How a worker comes to be: the arguments `spawn_worker` gives to the new process, what `main` of
the worker reads from them, and the greeting by which the coordinator knows it again. -/

namespace Iobs.Proto
open ByteFormat Persist

def isSpace (c : UInt8) : Bool := c = 0x20 || (0x09 ≤ c && c ≤ 0x0D)

def isDigit (c : UInt8) : Bool := 0x30 ≤ c && c ≤ 0x39

def scanNumeral (s : ByteString) : Bool × ByteString :=
  match s.dropWhile isSpace with
  | 0x2D :: s => (true, s.takeWhile isDigit)
  | 0x2B :: s => (false, s.takeWhile isDigit)
  | s => (false, s.takeWhile isDigit)

def strtoull (s : ByteString) : UInt64 :=
  let v := numeral (scanNumeral s).2
  if 2 ^ 64 ≤ v then 0xFFFFFFFFFFFFFFFF
  else if (scanNumeral s).1 then 0 - UInt64.ofNat v else UInt64.ofNat v

def atoi (s : ByteString) : Int :=
  let v : Int := numeral (scanNumeral s).2
  if (scanNumeral s).1 then max (-v) (-2 ^ 63) else min v (2 ^ 63 - 1)

theorem decimal_digits (n : Nat) : decimal n ≠ [] ∧ (∀ c ∈ decimal n, IsDigit c) ∧
    numeral (decimal n) = n := by
  unfold decimal
  split_ifs with hn
  · subst hn
    exact ⟨List.cons_ne_nil _ _, by simp [IsDigit], rfl⟩
  · have hdigit : ∀ d ∈ Nat.digits 10 n, (UInt8.ofNat (d + 48)).toNat = d + 48 := by
      intro d hd
      have hlt := Nat.digits_lt_base (by decide) hd
      rw [UInt8.toNat_ofNat', Nat.mod_eq_of_lt]
      omega
    refine ⟨?_, ?_, ?_⟩
    · rw [ne_eq, List.map_eq_nil_iff, List.reverse_eq_nil_iff, Nat.digits_eq_nil_iff_eq_zero]
      exact hn
    · intro c hc
      obtain ⟨d, hd, rfl⟩ := List.mem_map.mp hc
      rw [List.mem_reverse] at hd
      have hlt := Nat.digits_lt_base (by decide) hd
      rw [IsDigit, hdigit d hd]
      omega
    · have hback : ((Nat.digits 10 n).reverse.map fun d => UInt8.ofNat (d + 48)).map
          (fun c => c.toNat - 48) = (Nat.digits 10 n).reverse := by
        rw [List.map_map]
        refine (List.map_congr_left ?_).trans (List.map_id _)
        intro d hd
        rw [List.mem_reverse] at hd
        rw [Function.comp_apply, hdigit d hd]
        exact Nat.add_sub_cancel d 48
      rw [numeral, hback, List.reverse_reverse, Nat.ofDigits_digits]

theorem scanNumeral_decimal (n : Nat) : scanNumeral (decimal n) = (false, decimal n) := by
  obtain ⟨hne, hall, -⟩ := decimal_digits n
  have hdigits : ∀ c ∈ decimal n, isDigit c = true := by
    intro c hc
    obtain ⟨hlo, hhi⟩ := hall c hc
    rw [isDigit, Bool.and_eq_true, decide_eq_true_eq, decide_eq_true_eq, UInt8.le_iff_toNat_le,
      UInt8.le_iff_toNat_le]
    exact ⟨hlo, hhi⟩
  have htake : (decimal n).takeWhile isDigit = decimal n := List.takeWhile_eq_self_iff.mpr hdigits
  -- the first character is a digit, so neither white space nor a sign
  obtain ⟨c, cs, hcs⟩ := List.exists_cons_of_ne_nil hne
  obtain ⟨hlo, hhi⟩ := hall c (hcs ▸ List.mem_cons_self ..)
  have hspace : ¬ isSpace c = true := by
    rw [isSpace, Bool.or_eq_true, Bool.and_eq_true, decide_eq_true_eq, decide_eq_true_eq,
      decide_eq_true_eq, UInt8.le_iff_toNat_le, UInt8.le_iff_toNat_le, ← UInt8.toNat_inj]
    change ¬ (c.toNat = 32 ∨ 9 ≤ c.toNat ∧ c.toNat ≤ 13)
    omega
  have hdrop : (decimal n).dropWhile isSpace = decimal n := by
    rw [hcs, List.dropWhile_cons_of_neg hspace]
  rw [scanNumeral, hdrop]
  split
  · rename_i s hs
    obtain rfl : c = 0x2D := (List.cons.inj (hcs.symm.trans hs)).1
    exact absurd hlo (by decide)
  · rename_i s hs
    obtain rfl : c = 0x2B := (List.cons.inj (hcs.symm.trans hs)).1
    exact absurd hlo (by decide)
  · rw [htake]

theorem strtoull_decimal (n : UInt64) : strtoull (decimal n.toNat) = n := by
  obtain ⟨-, -, hnum⟩ := decimal_digits n.toNat
  have hlt : ¬ 2 ^ 64 ≤ n.toNat := Nat.not_le.mpr (UInt64.toNat_lt n)
  rw [strtoull, scanNumeral_decimal]
  dsimp only
  rw [hnum, if_neg hlt, if_neg Bool.false_ne_true, UInt64.ofNat_toNat]

theorem atoi_decimal {n : Nat} (h : n < 2 ^ 63) : atoi (decimal n) = n := by
  obtain ⟨-, -, hnum⟩ := decimal_digits n
  rw [atoi, scanNumeral_decimal]
  dsimp only
  rw [hnum, if_neg Bool.false_ne_true]
  omega

def argValue (argv : List ByteString) (key dflt : ByteString) : ByteString :=
  match argv with
  | a :: b :: rest => if a = key then b else argValue (b :: rest) key dflt
  | _ => dflt

def parseEndpoint (ep : ByteString) : Option (ByteString × UInt16) :=
  if 0x3A ∉ ep then none
  else
    let host := ep.takeWhile (· ≠ 0x3A)
    let port := UInt16.ofInt (atoi ((ep.dropWhile (· ≠ 0x3A)).drop 1))
    if host ≠ [] ∧ port > 0 then some (host, port) else none

/-- What is left of the bytes behind `c_str()`: those before the first NUL. -/
def cString (s : ByteString) : ByteString := s.takeWhile (· ≠ 0)

def spawnArgs (workerExe host : ByteString) (port : UInt16) (id boot : UInt64) : List ByteString :=
  [cString workerExe, ascii "--connect", cString (host ++ ascii ":" ++ decimal port.toNat),
    ascii "--id", cString (decimal id.toNat), ascii "--boot", cString (decimal boot.toNat)]

/-- What `main` of the worker makes of its arguments; it exits if the endpoint is bad. -/
def startWorker (argv : List ByteString) : Option (ByteString × UInt16 × Worker) :=
  (parseEndpoint (argValue argv (ascii "--connect") (ascii "127.0.0.1:39000"))).map fun ep =>
    (ep.1, ep.2, ⟨⟨strtoull (argValue argv (ascii "--id") (ascii "1"))⟩,
      ⟨strtoull (argValue argv (ascii "--boot") (ascii "1"))⟩, true⟩)

def workerKeys : List ByteString := [ascii "--connect", ascii "--id", ascii "--boot"]

theorem parseEndpoint_of_port {host : ByteString} {port : UInt16} (hhost : host ≠ [])
    (hcolon : 0x3A ∉ host) (hport : port ≠ 0) :
    parseEndpoint (host ++ ascii ":" ++ decimal port.toNat) = some (host, port) := by
  have hep : host ++ ascii ":" ++ decimal port.toNat = host ++ 0x3A :: decimal port.toNat := by
    rw [List.append_assoc]
    rfl
  have hno : ∀ c ∈ host, (decide (c ≠ 0x3A)) = true := by
    intro c hc
    rw [decide_eq_true_eq]
    rintro rfl
    exact hcolon hc
  have hbefore : (host ++ 0x3A :: decimal port.toNat).takeWhile (· ≠ 0x3A) = host := by
    rw [List.takeWhile_append_of_pos hno]
    simp
  have hafter : ((host ++ 0x3A :: decimal port.toNat).dropWhile (· ≠ 0x3A)).drop 1 =
      decimal port.toNat := by
    rw [List.dropWhile_append_of_pos hno]
    simp
  have hsmall : port.toNat < 2 ^ 63 := Nat.lt_trans (UInt16.toNat_lt port) (by decide)
  have hvalue : UInt16.ofInt (atoi (decimal port.toNat)) = port := by
    have hmod : ((port.toNat : Int) % 2 ^ 16).toNat = port.toNat := by
      have hlt := UInt16.toNat_lt port
      omega
    rw [atoi_decimal hsmall, UInt16.ofInt, hmod]
    exact UInt16.ofNat_toNat
  have hpos : port > 0 := UInt16.pos_iff_ne_zero.mpr hport
  rw [parseEndpoint, hep, if_neg (by simp)]
  dsimp only
  rw [hbefore, hafter, hvalue, if_pos ⟨hhost, hpos⟩]

theorem argValue_skip {a b key dflt : ByteString} {rest : List ByteString} (h : a ≠ key) :
    argValue (a :: b :: rest) key dflt = argValue (b :: rest) key dflt := by
  rw [argValue, if_neg h]

theorem argValue_here {b key dflt : ByteString} {rest : List ByteString} :
    argValue (key :: b :: rest) key dflt = b := by
  rw [argValue, if_pos rfl]

theorem decimal_ne_option (n : Nat) {s : ByteString} (h : 0x2D ∈ s) : decimal n ≠ s := by
  rintro rfl
  obtain ⟨hlo, -⟩ := (decimal_digits n).2.1 _ h
  exact absurd hlo (by decide)

theorem cString_of_notMem {s : ByteString} (h : 0 ∉ s) : cString s = s := by
  rw [cString, List.takeWhile_eq_self_iff]
  intro c hc
  rw [decide_eq_true_eq]
  rintro rfl
  exact h hc

theorem nul_notMem_decimal (n : Nat) : 0 ∉ decimal n := by
  intro h
  obtain ⟨hlo, -⟩ := (decimal_digits n).2.1 _ h
  exact absurd hlo (by decide)

theorem startWorker_spawnArgs {workerExe host : ByteString} {port : UInt16}
    (hexe : cString workerExe ∉ workerKeys) (hhost : host ≠ []) (hcolon : 0x3A ∉ host)
    (hnul : 0 ∉ host) (hport : port ≠ 0) (id boot : UInt64) :
    startWorker (spawnArgs workerExe host port id boot) =
      some (host, port, ⟨⟨id⟩, ⟨boot⟩, true⟩) := by
  have hargs : spawnArgs workerExe host port id boot = [cString workerExe, ascii "--connect",
      host ++ ascii ":" ++ decimal port.toNat, ascii "--id", decimal id.toNat, ascii "--boot",
      decimal boot.toNat] := by
    have hwhole : 0 ∉ host ++ ascii ":" ++ decimal port.toNat := by
      rw [List.mem_append, List.mem_append]
      rintro ((h | h) | h)
      · exact hnul h
      · exact absurd h (by decide)
      · exact nul_notMem_decimal _ h
    rw [spawnArgs, cString_of_notMem hwhole, cString_of_notMem (nul_notMem_decimal _),
      cString_of_notMem (nul_notMem_decimal _)]
  have hne : cString workerExe ≠ ascii "--connect" ∧ cString workerExe ≠ ascii "--id" ∧
      cString workerExe ≠ ascii "--boot" := by
    simpa only [workerKeys, List.mem_cons, List.not_mem_nil, or_false, not_or] using hexe
  have hendpoint (s : ByteString) (hs : 0x3A ∉ s) :
      host ++ ascii ":" ++ decimal port.toNat ≠ s := by
    rintro rfl
    apply hs
    simp [ascii]
  have hconnect : argValue (spawnArgs workerExe host port id boot) (ascii "--connect")
      (ascii "127.0.0.1:39000") = host ++ ascii ":" ++ decimal port.toNat := by
    rw [hargs, argValue_skip hne.1, argValue_here]
  have hid : argValue (spawnArgs workerExe host port id boot) (ascii "--id") (ascii "1") =
      decimal id.toNat := by
    rw [hargs, argValue_skip hne.2.1, argValue_skip (by decide),
      argValue_skip (hendpoint _ (by decide)), argValue_here]
  have hboot : argValue (spawnArgs workerExe host port id boot) (ascii "--boot") (ascii "1") =
      decimal boot.toNat := by
    rw [hargs, argValue_skip hne.2.2, argValue_skip (by decide),
      argValue_skip (hendpoint _ (by decide)), argValue_skip (by decide),
      argValue_skip (decimal_ne_option _ (by decide)), argValue_here]
  rw [startWorker, hconnect, hid, hboot, parseEndpoint_of_port hhost hcolon hport,
    strtoull_decimal, strtoull_decimal]
  rfl

/-- A worker that the coordinator starts connects where it was told to, and whatever arrives at it
and in whatever chunks, the coordinator knows it by the identity and the boot it was started
with. Only where the worker has ended with input unread may the greeting be lost, and then the
worker counts as not connected. -/
theorem spawned_accepted {workerExe host : ByteString} {port : UInt16}
    (hexe : cString workerExe ∉ workerKeys) (hhost : host ≠ []) (hcolon : 0x3A ∉ host)
    (hnul : 0 ∉ host) (hport : port ≠ 0) (id boot : UInt64) :
    ∃ w, startWorker (spawnArgs workerExe host port id boot) = some (host, port, w) ∧
      ∀ (sigpipe : Nat → Bool) (s : Socket) (takes : Nat → Option Nat) (kept : Nat) (reset : Bool)
        (gives : Nat → Nat), (∀ i, takes i ≠ none) →
        let r := workerMain sigpipe w s ⟨[], takes, 0⟩
        let a := acceptOne ⟨afterClose r kept, reset, gives, 0⟩
        (a.1 = ⟨id, boot, true⟩ ∨ a.1 = ⟨0, 0, false⟩) ∧
          (r.2.1.incoming = [] → a.1 = ⟨id, boot, true⟩) := by
  refine ⟨_, startWorker_spawnArgs hexe hhost hcolon hnul hport id boot, ?_⟩
  intro sigpipe s takes kept reset gives htakes r a
  obtain ⟨frames, -, -, hsent, -⟩ := workerMain_sent sigpipe ⟨⟨id⟩, ⟨boot⟩, true⟩ s htakes
  have hread : r.2.1.incoming = [] → a.1 = ⟨id, boot, true⟩ := by
    intro hunread
    have hall : afterClose r kept = r.2.2.sent := by
      rw [afterClose, hunread, List.isEmpty_nil, if_pos rfl]
    obtain ⟨calls, haccept⟩ :=
      acceptOne_hello (s := ⟨afterClose r kept, reset, gives, 0⟩) (hall.trans hsent)
    exact congrArg Prod.fst haccept
  refine ⟨?_, hread⟩
  by_cases hunread : r.2.1.incoming = []
  · exact .inl (hread hunread)
  · have hcut : afterClose r kept = r.2.2.sent.take kept := by
      rw [afterClose, if_neg (by simpa using hunread)]
    rw [hsent] at hcut
    rcases acceptOne_cut (s := ⟨afterClose r kept, reset, gives, 0⟩) hcut with ⟨hwhole, -⟩ | hlost
    · exact .inl hwhole
    · exact .inr hlost

theorem spawned_accepted_first :
    ∃ w, startWorker (spawnArgs (ascii "io-worker") (ascii "127.0.0.1") 39000 100 1000) =
        some (ascii "127.0.0.1", 39000, w) ∧
      (acceptOne ⟨afterClose (workerMain (fun _ => true) w ⟨[], false, fun _ => 1, 0⟩
        ⟨[], fun _ => some 1, 0⟩) 0, false, fun _ => 1, 0⟩).1 = ⟨100, 1000, true⟩ := by
  have htakes : ∀ i : Nat, (fun _ => some 1 : Nat → Option Nat) i ≠ none := by
    intro i h
    cases h
  obtain ⟨w, hstart, haccept⟩ := @spawned_accepted (ascii "io-worker") (ascii "127.0.0.1") 39000
    (by decide) (by decide) (by decide) (by decide) (by decide) 100 1000
  obtain ⟨frames, w', htaken, -, hunread⟩ :=
    workerMain_sent (fun _ => true) w ⟨[], false, fun _ => 1, 0⟩ htakes
  obtain ⟨rest, hrest, -⟩ := htaken.front
  have hnone : [] = frames.flatMap frameBytes := (List.append_eq_nil_iff.mp hrest.symm).1.symm
  exact ⟨w, hstart, (haccept (fun _ => true) _ _ 0 _ _ htakes).2 (hunread hnone)⟩

end Iobs.Proto
