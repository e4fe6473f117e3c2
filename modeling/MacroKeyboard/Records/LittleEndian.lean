import Mathlib

namespace Records.LittleEndian

/-- The `count` low bytes of a number, the lowest first. -/
def writeLe : Nat → Nat → List UInt8
  | 0, _ => []
  | count + 1, value => UInt8.ofNat value :: writeLe count (value / 256)

def readLe : List UInt8 → Nat
  | [] => 0
  | byte :: rest => byte.toNat + 256 * readLe rest

@[simp] theorem length_writeLe (count value : Nat) : (writeLe count value).length = count := by
  induction count generalizing value with
  | zero => rfl
  | succ count ih => rw [writeLe, List.length_cons, ih]

theorem readLe_writeLe {count value : Nat} (h : value < 256 ^ count) :
    readLe (writeLe count value) = value := by
  induction count generalizing value with
  | zero =>
    rw [pow_zero, Nat.lt_one_iff] at h
    rw [h]
    rfl
  | succ count ih =>
    have hrest : value / 256 < 256 ^ count := by
      rw [Nat.div_lt_iff_lt_mul (by decide), ← pow_succ]
      exact h
    rw [writeLe, readLe, ih hrest, UInt8.toNat_ofNat']
    exact Nat.mod_add_div value 256

theorem readLe_lt (content : List UInt8) : readLe content < 256 ^ content.length := by
  induction content with
  | nil => exact Nat.one_pos
  | cons byte rest ih =>
    have hbyte := byte.toNat_lt
    rw [readLe, List.length_cons, pow_succ]
    omega

theorem writeLe_readLe (content : List UInt8) : writeLe content.length (readLe content) = content := by
  induction content with
  | nil => rfl
  | cons byte rest ih =>
    have hbyte := byte.toNat_lt
    have hdiv : (byte.toNat + 256 * readLe rest) / 256 = readLe rest := by omega
    have hmod : (byte.toNat + 256 * readLe rest) % 256 = byte.toNat := by omega
    rw [List.length_cons, writeLe, readLe, hdiv, ih]
    congr 1
    rw [← UInt8.toNat_inj, UInt8.toNat_ofNat']
    exact hmod

end Records.LittleEndian
