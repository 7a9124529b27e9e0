import Mathlib.Algebra.Order.Ring.Nat
import Mathlib.Tactic.SplitIfs
import SNBModules.Transfer.Metadata

/-!
# Progress

Source: `transfer_metadata.hpp`, `set_progress` and `get_progress`.

A percentage is kept as a number of bytes and read back as a percentage, with a
division that rounds down each time.  All numbers are of 64 bits without a sign.
-/

namespace SNBModules
namespace Transfer

/-! ## Dividing there and back -/

/-- A share `p` of `c` parts, as a number out of `s` and back, does not grow. -/
theorem share_le (s p c : ℕ) : p * s / c * c / s ≤ p :=
  Nat.div_le_of_le_mul (by rw [Nat.mul_comm s p]; exact Nat.div_mul_le_self _ _)

/-- It loses less than one part, when there are at least as many numbers as parts. -/
theorem le_share {s c : ℕ} (hc : 0 < c) (hs : c ≤ s) (p : ℕ) : p ≤ p * s / c * c / s + 1 := by
  rcases Nat.eq_zero_or_pos p with rfl | hp
  · exact Nat.zero_le _
  have hrest : p * s < p * s / c * c + c := by
    have hdiv := Nat.div_add_mod' (p * s) c
    have hmod := Nat.mod_lt (p * s) hc
    omega
  have hone : (p - 1) * s + s = p * s := by
    rw [← Nat.succ_mul, Nat.succ_eq_add_one, Nat.sub_add_cancel hp]
  have hle : (p - 1) * s ≤ p * s / c * c := by omega
  have hback : p - 1 ≤ p * s / c * c / s := (Nat.le_div_iff_mul_le (by omega)).2 hle
  omega

theorem share_mono {s c p q : ℕ} (h : p ≤ q) : p * s / c * c / s ≤ q * s / c * c / s :=
  Nat.div_le_div_right (Nat.mul_le_mul_right c (Nat.div_le_div_right (Nat.mul_le_mul_right s h)))

/-- The whole is read back as the whole. -/
theorem share_whole {s c : ℕ} (hc : 0 < c) (hs : 0 < s) : c * s / c * c / s = c := by
  rw [Nat.mul_div_cancel_left s hc, Nat.mul_div_cancel_left c hs]

namespace TransferMetadata

/-- `static_cast<int>` of a `uint64_t`. -/
def castInt (n : ℕ) : ℤ := (BitVec.ofNat 32 n).toInt

/-- `get_progress`; the product is one of 64 bits. -/
def getProgress (m : TransferMetadata) : ℤ :=
  if m.bytesSize = 0 then 0 else castInt (m.bytesTransferred * 100 % 2 ^ 64 / m.bytesSize)

theorem castInt_of_le {n : ℕ} (h : n ≤ 100) : castInt n = n := by
  rw [castInt, BitVec.toInt_ofNat', Int.bmod_eq_of_le] <;> omega

/-- What `set_progress` records and `get_progress` computes from it, without the bounds of
64 bits. -/
theorem setProgress_spec {m m' : TransferMetadata} {p : ℕ} (hp : p ≤ 100)
    (hlow : 100 ≤ m.bytesSize) (hhigh : m.bytesSize ≤ (2 ^ 64 - 1) / 100)
    (h : m.setProgress p = .ok m') :
    m'.bytesSize = m.bytesSize ∧ p * m.bytesSize < 2 ^ 64 ∧
      m'.bytesTransferred = p * m.bytesSize / 100 ∧ m'.bytesTransferred * 100 < 2 ^ 64 ∧
      m'.getProgress = (p * m.bytesSize / 100 * 100 / m.bytesSize : ℕ) := by
  have hproduct : p * m.bytesSize ≤ 100 * m.bytesSize := Nat.mul_le_mul_right _ hp
  have hback : p * m.bytesSize / 100 * 100 ≤ p * m.bytesSize := Nat.div_mul_le_self _ _
  rw [setProgress] at h
  split_ifs at h
  cases h
  have hsmall : p * m.bytesSize < 2 ^ 64 := by omega
  have hbytes : p * m.bytesSize % 2 ^ 64 / 100 = p * m.bytesSize / 100 := by
    rw [Nat.mod_eq_of_lt hsmall]
  refine ⟨rfl, hsmall, hbytes, ?_, ?_⟩
  · show p * m.bytesSize % 2 ^ 64 / 100 * 100 < 2 ^ 64
    omega
  · have hget : getProgress (m.setBytesTransferred (p * m.bytesSize % 2 ^ 64 / 100)) =
        castInt (p * m.bytesSize % 2 ^ 64 / 100 * 100 % 2 ^ 64 / m.bytesSize) :=
      if_neg (by show m.bytesSize ≠ 0; omega)
    rw [Int.toNat_natCast, hget, hbytes, Nat.mod_eq_of_lt (by omega)]
    exact castInt_of_le ((share_le m.bytesSize p 100).trans hp)

/-- **A percentage that is set is read back,** or one less: nothing wraps around, at most
the whole file is recorded, nothing and the whole are exact, and more is never less. -/
theorem set_get_progress (m : TransferMetadata) (hlow : 100 ≤ m.bytesSize)
    (hhigh : m.bytesSize ≤ (2 ^ 64 - 1) / 100) (p : ℤ) (hp : 0 ≤ p) (hp' : p ≤ 100) :
    ∃ m', m.setProgress p = .ok m' ∧
      (p * m.bytesSize < 2 ^ 64 ∧ m'.bytesTransferred * 100 < 2 ^ 64) ∧
      m'.bytesTransferred ≤ m.bytesSize ∧
      (m'.getProgress = p ∨ m'.getProgress = p - 1) ∧
      (p = 0 → m'.getProgress = 0) ∧ (p = 100 → m'.getProgress = 100) ∧
      ∀ (n n' : TransferMetadata) (q : ℤ), n.bytesSize = m.bytesSize → p ≤ q →
        n.setProgress q = .ok n' → m'.getProgress ≤ n'.getProgress := by
  obtain ⟨k, rfl⟩ := Int.eq_ofNat_of_zero_le hp
  have hk : k ≤ 100 := by omega
  have hset : m.setProgress k = .ok
      (m.setBytesTransferred (k * m.bytesSize % 2 ^ 64 / 100)) := if_neg (by omega)
  obtain ⟨-, hsmall, hbytes, hsmall', hget⟩ := setProgress_spec hk hlow hhigh hset
  refine ⟨_, hset, ⟨by exact_mod_cast hsmall, hsmall'⟩, ?_, ?_, ?_, ?_, ?_⟩
  · rw [hbytes]
    exact Nat.div_le_of_le_mul (Nat.mul_le_mul_right _ hk)
  · have hle := share_le m.bytesSize k 100
    have hge := le_share (c := 100) (by decide) hlow k
    rw [hget]
    omega
  · rintro hzero
    obtain rfl : k = 0 := by omega
    rw [hget]
    simp
  · rintro hwhole
    obtain rfl : k = 100 := by omega
    rw [hget, share_whole (by decide) (by omega)]
    rfl
  · intro n n' q hsize hq hn
    have hq' : q ≤ 100 := by
      rw [setProgress] at hn
      split_ifs at hn with hbad
      omega
    obtain ⟨l, rfl⟩ := Int.eq_ofNat_of_zero_le (hp.trans hq)
    obtain ⟨-, -, -, -, hgetn⟩ := setProgress_spec (p := l) (by omega) (hsize ▸ hlow)
      (hsize ▸ hhigh) hn
    rw [hget, hgetn, hsize]
    exact_mod_cast share_mono (by omega)

/-- A file of 199 bytes, half transferred. -/
theorem set_get_progress_half :
    ∃ m', ({ blank with bytesSize := 199 } : TransferMetadata).setProgress 50 = .ok m' ∧
      (m'.getProgress = 50 ∨ m'.getProgress = 49) := by
  obtain ⟨m', hset, -, -, hget, -⟩ := set_get_progress { blank with bytesSize := 199 }
    (by decide) (by decide) 50 (by decide) (by decide)
  exact ⟨m', hset, hget⟩

end TransferMetadata

end Transfer
end SNBModules
