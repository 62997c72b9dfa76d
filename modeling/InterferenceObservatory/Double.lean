import Mathlib.Algebra.Order.Field.Rat
import Mathlib.Algebra.Order.AbsoluteValue.Basic

/-! The `double` values of the program. The observatory is written over any type with
the operations it uses: `ℚ` reads every `double` as the exact number, `Double` is the
64-bit pattern with IEEE 754 arithmetic. -/

namespace Iobs

class DoubleOps (F : Type) extends Add F, Sub F, Mul F, Div F, OfScientific F where
  ofUInt64 : UInt64 → F
  ofInt64 : Int64 → F
  fabs : F → F
  ltb : F → F → Bool
  leb : F → F → Bool
  eqb : F → F → Bool
  isFinite : F → Bool

namespace DoubleOps

variable {F : Type} [DoubleOps F]

def min (a b : F) : F := if ltb b a then b else a

def clamp (v lo hi : F) : F := if ltb v lo then lo else if ltb hi v then hi else v

def isFiniteNonneg (v : F) : Bool := isFinite v && leb 0.0 v

end DoubleOps

instance : DoubleOps ℚ where
  ofUInt64 n := n.toNat
  ofInt64 n := n.toInt
  fabs x := |x|
  ltb x y := decide (x < y)
  leb x y := decide (x ≤ y)
  eqb x y := decide (x = y)
  isFinite _ := true

section Rat
open DoubleOps

@[simp] theorem ltb_rat (x y : ℚ) : ltb x y = decide (x < y) := rfl
@[simp] theorem leb_rat (x y : ℚ) : leb x y = decide (x ≤ y) := rfl
@[simp] theorem fabs_rat (x : ℚ) : fabs x = |x| := rfl
@[simp] theorem ofUInt64_rat (n : UInt64) : (ofUInt64 n : ℚ) = n.toNat := rfl

@[simp] theorem lit_zero : (0.0 : ℚ) = 0 := by decide +kernel
@[simp] theorem lit_one : (1.0 : ℚ) = 1 := by decide +kernel

theorem min_rat (x y : ℚ) : DoubleOps.min x y = x ⊓ y := by
  simp only [DoubleOps.min, ltb_rat, decide_eq_true_eq]
  split_ifs with h
  · exact (min_eq_right h.le).symm
  · exact (min_eq_left (not_lt.mp h)).symm

end Rat

structure Double where
  bits : UInt64
deriving DecidableEq

namespace Double

def toFloat (d : Double) : Float := Float.ofBits d.bits

def ofFloat (f : Float) : Double := ⟨f.toBits⟩

instance : DoubleOps Double where
  add x y := ofFloat (x.toFloat + y.toFloat)
  sub x y := ofFloat (x.toFloat - y.toFloat)
  mul x y := ofFloat (x.toFloat * y.toFloat)
  div x y := ofFloat (x.toFloat / y.toFloat)
  ofScientific m s e := ofFloat (OfScientific.ofScientific m s e)
  ofUInt64 n := ofFloat n.toFloat
  ofInt64 n := ofFloat ⟨Float.Model.ofInt64 n⟩
  fabs x := ofFloat x.toFloat.abs
  ltb x y := x.toFloat.lt y.toFloat
  leb x y := x.toFloat.le y.toFloat
  eqb x y := x.toFloat.beq y.toFloat
  isFinite x := x.toFloat.isFinite

open Float.Model in
theorem compare_self_of_isFinite {u : UnpackedFloat} (h : u.isFinite) :
    u.compare u = some .eq := by
  cases u with
  | notANumber => cases h
  | infinity s => cases h
  | zero s => rfl
  | finite s m e hm =>
    dsimp only [UnpackedFloat.compare]
    cases s <;> simp only [Std.ReflOrd.compare_self, Ordering.then_eq, Ordering.swap]

theorem eqb_self {x : Double} (h : DoubleOps.isFinite x) : DoubleOps.eqb x x := by
  have hc := compare_self_of_isFinite (u := x.toFloat.toModel.unpack) h
  change (x.toFloat.toModel.unpack.compare x.toFloat.toModel.unpack == some .eq) = true
  rw [hc]
  rfl

open Float.Model in
theorem compare_swap_of_isFinite {u v : UnpackedFloat} (hu : u.isFinite) (hv : v.isFinite) :
    ∃ o, u.compare v = some o ∧ v.compare u = some o.swap := by
  cases u with
  | notANumber => cases hu
  | infinity s => cases hu
  | zero s =>
    cases v with
    | notANumber => cases hv
    | infinity s => cases hv
    | zero s => exact ⟨.eq, rfl, rfl⟩
    | finite s m e hm => cases s <;> exact ⟨_, rfl, rfl⟩
  | finite s m e hm =>
    cases v with
    | notANumber => cases hv
    | infinity s => cases hv
    | zero s' => cases s <;> exact ⟨_, rfl, rfl⟩
    | finite s' m' e' hm' =>
      have hcompare : (compare e' e).then (compare m' m) =
          ((compare e e').then (compare m m')).swap := by
        rw [Ordering.swap_then, ← Std.OrientedOrd.eq_swap, ← Std.OrientedOrd.eq_swap]
      cases s <;> cases s' <;> refine ⟨_, rfl, ?_⟩
      · exact congrArg (fun o => some (Ordering.swap o)) hcompare
      · rfl
      · rfl
      · exact congrArg some hcompare

theorem leb_of_not_ltb {x y : Double} (hx : DoubleOps.isFinite x) (hy : DoubleOps.isFinite y)
    (h : ¬ DoubleOps.ltb x y) : DoubleOps.leb y x := by
  obtain ⟨o, ho, hswap⟩ := compare_swap_of_isFinite (u := x.toFloat.toModel.unpack)
    (v := y.toFloat.toModel.unpack) hx hy
  have hne : o ≠ .lt := by
    rintro rfl
    apply h
    change decide ((x.toFloat.toModel.unpack.compare y.toFloat.toModel.unpack == some .lt) = true)
      = true
    rw [ho]
    rfl
  change decide (((y.toFloat.toModel.unpack.compare x.toFloat.toModel.unpack).any (·.isLE)) = true)
    = true
  rw [hswap]
  cases o
  · exact absurd rfl hne
  · rfl
  · rfl

end Double
end Iobs
