/-
The handles of the camera interface, `mm_camera_interface.c`.

A handle is made of a counter of 16 bits, which all cameras, channels and
streams of the process share, and the index of the object among its siblings.
-/
import Mathlib.Tactic

namespace Interface

/-- `mm_camera_util_generate_handler`: the counter skips 0. -/
def generateHandler (count : UInt16) (index : UInt8) : UInt16 × UInt32 :=
  let count := count + 1
  let count := if count = 0 then count + 1 else count
  (count, count.toUInt32 <<< 8 ||| index.toUInt32)

/-- `mm_camera_util_get_index_by_handler`. -/
def getIndexByHandler (handler : UInt32) : UInt8 := (handler &&& 0x000000ff).toUInt8

section Handler

variable {count : UInt16} {index : UInt8}

theorem generateHandler_count_ne_zero : (generateHandler count index).1 ≠ 0 := by
  simp only [generateHandler]
  split
  · rename_i h
    rw [h]
    decide
  · assumption

theorem toNat_generateHandler :
    (generateHandler count index).2.toNat =
      (generateHandler count index).1.toNat * 256 + index.toNat := by
  simp only [generateHandler]
  generalize (if count + 1 = 0 then count + 1 + 1 else count + 1) = n
  have hn := n.toNat_lt
  have hi := index.toNat_lt
  have hshift : (n.toUInt32 <<< 8).toNat = n.toNat <<< 8 := by
    simp [UInt32.toNat_shiftLeft, Nat.shiftLeft_eq]
    omega
  rw [UInt32.toNat_or, hshift, UInt8.toNat_toUInt32,
    ← Nat.shiftLeft_add_eq_or_of_lt (by simpa using hi), Nat.shiftLeft_eq]

theorem generateHandler_ne_zero : (generateHandler count index).2 ≠ 0 := by
  intro h
  have hnat : (generateHandler count index).2.toNat = 0 := by rw [h]; rfl
  rw [toNat_generateHandler] at hnat
  refine @generateHandler_count_ne_zero count index ?_
  apply UInt16.toNat_inj.mp
  rw [UInt16.toNat_zero]
  omega

theorem getIndexByHandler_generateHandler :
    getIndexByHandler (generateHandler count index).2 = index := by
  apply UInt8.toNat_inj.mp
  have hi := index.toNat_lt
  simp only [getIndexByHandler, UInt32.toNat_toUInt8, UInt32.toNat_and, toNat_generateHandler]
  rw [show (0x000000ff : UInt32).toNat = 2 ^ 8 - 1 from rfl, Nat.and_two_pow_sub_one_eq_mod]
  omega

end Handler

end Interface
