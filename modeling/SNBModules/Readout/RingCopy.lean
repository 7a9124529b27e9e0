import Mathlib.Algebra.Ring.Nat
import Mathlib.Data.List.Basic
import Mathlib.Data.Nat.Notation

/-!
# Copying into a ring

Source: `SNBRequestHandlerModel.hpp`, `dump_to_buffer`.

The bytes are copied in pieces: each goes as far as the end of the buffer, and the
next one to its start.  Every piece is taken from the start of the data, as the
pointer to them does not move.  The position is a `uint32_t`: in a buffer of more
than 2^32 bytes the second piece starts at `restart`.
-/

namespace SNBModules
namespace Readout

/-! ## The loop -/

/-- `memcpy` into a buffer. -/
def overwrite (buffer : List UInt8) (pos : ℕ) (piece : List UInt8) : List UInt8 :=
  buffer.take pos ++ piece ++ buffer.drop (pos + piece.length)

/-- The variables of the loop. -/
structure Dump where
  buffer : List UInt8
  bufferPos : ℕ
  bytesToCopy : ℕ
  deriving DecidableEq, Repr

/-- One turn of the loop, with the position inside of the buffer. -/
def dumpPiece (data : List UInt8) (d : Dump) : Dump :=
  let n := min d.bytesToCopy (d.buffer.length - d.bufferPos)
  let pos := (d.bufferPos + n) % 2 ^ 32
  { buffer := overwrite d.buffer d.bufferPos (data.take n)
    bufferPos := if pos = d.buffer.length then 0 else pos
    bytesToCopy := d.bytesToCopy - n }

/-- The loop; it runs on when a turn copies nothing. -/
def dumpLoop (data : List UInt8) : ℕ → Dump → Option Dump
  | 0, d => if d.bytesToCopy = 0 then some d else none
  | turns + 1, d => if d.bytesToCopy = 0 then some d else dumpLoop data turns (dumpPiece data d)

/-- `dump_to_buffer`: the buffer afterwards, if the loop ends.  A turn that does not
copy anything is repeated for ever, so as many turns as bytes are enough. -/
def dumpToBuffer (data buffer : List UInt8) (bufferPos : ℕ) : Option (List UInt8) :=
  (dumpLoop data data.length ⟨buffer, bufferPos, data.length⟩).map Dump.buffer

example : dumpToBuffer [1, 2, 3] [0, 0, 0, 0] 1 = some [0, 1, 2, 3] := by decide

/-! ## What is wanted -/

/-- The data are in the ring from `p` on, and the other bytes are as before. -/
structure RingCopied (data buffer : List UInt8) (p : ℕ) (result : List UInt8) : Prop where
  length : result.length = buffer.length
  copied : ∀ i < data.length, result[(p + i) % buffer.length]? = data[i]?
  kept : ∀ k < buffer.length, (∀ i < data.length, (p + i) % buffer.length ≠ k) →
    result[k]? = buffer[k]?

/-- How many bytes do not fit before the end of the buffer. -/
def wrapped (data buffer : List UInt8) (p : ℕ) : ℕ := p + data.length - buffer.length

/-- The byte that belongs at a position of the ring. -/
def ringByte (data buffer : List UInt8) (p k : ℕ) : Option UInt8 :=
  if k < wrapped data buffer p then data[buffer.length - p + k]?
  else if p ≤ k ∧ k < p + data.length then data[k - p]?
  else buffer[k]?

variable {data buffer : List UInt8} {p : ℕ}

/-- The ring is right when each of its bytes is. -/
theorem ringCopied_iff {result : List UInt8} (hp : p < buffer.length)
    (hn : data.length ≤ buffer.length) :
    RingCopied data buffer p result ↔
      result.length = buffer.length ∧
        ∀ k < buffer.length, result[k]? = ringByte data buffer p k := by
  have hmod : ∀ i < data.length, (p + i) % buffer.length =
      if p + i < buffer.length then p + i else p + i - buffer.length := by
    intro i hi
    split_ifs with h
    · exact Nat.mod_eq_of_lt h
    · rw [Nat.mod_eq_sub_mod (by omega), Nat.mod_eq_of_lt (by omega)]
  constructor
  · intro h
    refine ⟨h.length, fun k hk => ?_⟩
    unfold ringByte wrapped
    split_ifs with hwrap hin
    · have hi : buffer.length - p + k < data.length := by omega
      rw [← h.copied _ hi, hmod _ hi, if_neg (by omega)]
      congr 1
      omega
    · have hi : k - p < data.length := by omega
      rw [← h.copied _ hi, hmod _ hi, if_pos (by omega)]
      congr 1
      omega
    · refine h.kept k hk fun i hi => ?_
      rw [hmod i hi]
      split_ifs <;> omega
  · rintro ⟨hlength, h⟩
    refine ⟨hlength, fun i hi => ?_, fun k hk hkept => ?_⟩
    · rw [hmod i hi]
      split_ifs with hend
      · rw [h _ hend, ringByte, if_neg (by unfold wrapped; omega), if_pos (by omega)]
        congr 1
        omega
      · rw [h _ (by omega), ringByte, if_pos (by unfold wrapped; omega)]
        congr 1
        omega
    · rw [h k hk, ringByte]
      split_ifs with hwrap hin
      · have hi : buffer.length - p + k < data.length := by unfold wrapped at hwrap; omega
        have hne := hkept _ hi
        rw [hmod _ hi] at hne
        split_ifs at hne <;> omega
      · have hi : k - p < data.length := by omega
        have hne := hkept _ hi
        rw [hmod _ hi] at hne
        split_ifs at hne <;> omega
      · rfl

/-! ## What the loop leaves -/

theorem length_overwrite {piece : List UInt8} (h : p + piece.length ≤ buffer.length) :
    (overwrite buffer p piece).length = buffer.length := by
  simp only [overwrite, List.length_append, List.length_take, List.length_drop]
  omega

/-- The piece is where it was put, and the rest as before. -/
theorem getElem?_overwrite {piece : List UInt8} (h : p + piece.length ≤ buffer.length) (k : ℕ) :
    (overwrite buffer p piece)[k]? =
      if p ≤ k ∧ k < p + piece.length then piece[k - p]? else buffer[k]? := by
  have htake : (buffer.take p).length = p := by rw [List.length_take]; omega
  rw [overwrite, List.append_assoc]
  rcases Nat.lt_or_ge k p with hlow | hlow
  · rw [List.getElem?_append_left (by omega), List.getElem?_take_of_lt hlow, if_neg (by omega)]
  · rw [List.getElem?_append_right (by omega), htake]
    rcases Nat.lt_or_ge k (p + piece.length) with hin | hout
    · rw [List.getElem?_append_left (by omega), if_pos ⟨hlow, hin⟩]
    · rw [List.getElem?_append_right (by omega), List.getElem?_drop, if_neg (by omega)]
      congr 1
      omega

/-- Where the second piece is put. -/
def restart (buffer : List UInt8) : ℕ :=
  if buffer.length < 2 ^ 32 then 0 else buffer.length % 2 ^ 32

theorem dumpLoop_done (turns : ℕ) {d : Dump} (h : d.bytesToCopy = 0) :
    dumpLoop data turns d = some d := by
  cases turns <;> rw [dumpLoop, if_pos h]

theorem dumpLoop_turn {turns : ℕ} (hturns : turns ≠ 0) {d : Dump} (h : d.bytesToCopy ≠ 0) :
    dumpLoop data turns d = dumpLoop data (turns - 1) (dumpPiece data d) := by
  obtain ⟨turns, rfl⟩ := Nat.exists_eq_succ_of_ne_zero hturns
  rw [dumpLoop, if_neg h]
  rfl

/-- A piece that fits is the last one. -/
theorem dumpLoop_last {turns : ℕ} {d : Dump} (hturns : d.bytesToCopy ≤ turns)
    (hfits : d.bufferPos + d.bytesToCopy ≤ d.buffer.length) :
    (dumpLoop data turns d).map Dump.buffer =
      some (overwrite d.buffer d.bufferPos (data.take d.bytesToCopy)) := by
  rcases Nat.eq_zero_or_pos d.bytesToCopy with hzero | hpos
  · rw [dumpLoop_done turns hzero, hzero]
    simp [overwrite]
  · have hmin : min d.bytesToCopy (d.buffer.length - d.bufferPos) = d.bytesToCopy := by omega
    rw [dumpLoop_turn (by omega) (by omega), dumpLoop_done _ (by simp [dumpPiece, hmin])]
    simp [dumpPiece, hmin]

/-- **One piece:** the data fit before the end of the buffer. -/
theorem dumpToBuffer_fits (h : p + data.length ≤ buffer.length) :
    dumpToBuffer data buffer p = some (overwrite buffer p data) := by
  have hlast : (dumpLoop data data.length ⟨buffer, p, data.length⟩).map Dump.buffer =
      some (overwrite buffer p (data.take data.length)) := dumpLoop_last (Nat.le_refl _) h
  rw [dumpToBuffer, hlast, List.take_length]

/-- **Two pieces:** both are taken from the start of the data. -/
theorem dumpToBuffer_wraps (hp : p < buffer.length) (hp32 : p < 2 ^ 32)
    (hn : data.length ≤ buffer.length) (h : buffer.length < p + data.length) :
    dumpToBuffer data buffer p =
      some (overwrite (overwrite buffer p (data.take (buffer.length - p))) (restart buffer)
        (data.take (wrapped data buffer p))) := by
  have hmin : min data.length (buffer.length - p) = buffer.length - p := by omega
  have hend : p + (buffer.length - p) = buffer.length := by omega
  have hlength : (overwrite buffer p (data.take (buffer.length - p))).length = buffer.length :=
    length_overwrite (by rw [List.length_take]; omega)
  have hpos : (if buffer.length % 2 ^ 32 = buffer.length then 0 else buffer.length % 2 ^ 32) =
      restart buffer := by
    unfold restart
    split_ifs <;> omega
  have hpiece : dumpPiece data ⟨buffer, p, data.length⟩ =
      ⟨overwrite buffer p (data.take (buffer.length - p)), restart buffer,
        wrapped data buffer p⟩ := by
    simp only [dumpPiece, hmin, hend, hpos, wrapped, Dump.mk.injEq, true_and]
    omega
  have hfits : restart buffer + wrapped data buffer p ≤ buffer.length := by
    unfold restart wrapped
    split_ifs <;> omega
  have hturns : wrapped data buffer p ≤ data.length - 1 := by
    unfold wrapped
    omega
  rw [dumpToBuffer, dumpLoop_turn (by omega) (by simp only; omega), hpiece,
    dumpLoop_last hturns (by rw [hlength]; exact hfits)]

/-! ## When the ring is right -/

/-- The bytes before the place of the second piece are there already, and those of the
second piece are the ones that belong to its place. -/
def SecondPieceFits (data buffer : List UInt8) (p : ℕ) : Prop :=
  (∀ k < wrapped data buffer p, k < restart buffer →
    buffer[k]? = data[buffer.length - p + k]?) ∧
  ∀ j < wrapped data buffer p, data[j]? = ringByte data buffer p (restart buffer + j)

/-- Up to 2^32 bytes, the data that go to the start of the buffer have to be those that
the data start with. -/
theorem secondPieceFits_iff (h : buffer.length ≤ 2 ^ 32) :
    SecondPieceFits data buffer p ↔
      ∀ j < wrapped data buffer p, data[j]? = data[buffer.length - p + j]? := by
  have hrestart : restart buffer = 0 := by
    unfold restart
    split_ifs <;> omega
  have hbyte : ∀ j < wrapped data buffer p,
      ringByte data buffer p j = data[buffer.length - p + j]? := fun j hj => if_pos hj
  simp only [SecondPieceFits, hrestart, Nat.not_lt_zero, false_imp_iff, implies_true, true_and,
    Nat.zero_add]
  exact forall₂_congr fun j hj => by rw [hbyte j hj]

/-- The lengths of the two pieces, and the end of the second one. -/
theorem length_pieces (hp : p < buffer.length) (hp32 : p < 2 ^ 32)
    (hn : data.length ≤ buffer.length) (h : buffer.length < p + data.length) :
    (data.take (buffer.length - p)).length = buffer.length - p ∧
      (data.take (wrapped data buffer p)).length = wrapped data buffer p ∧
      restart buffer + wrapped data buffer p ≤ buffer.length := by
  simp only [List.length_take]
  unfold restart wrapped
  split_ifs <;> omega

/-- The bytes that the two pieces leave. -/
theorem getElem?_wraps (hp : p < buffer.length) (hp32 : p < 2 ^ 32)
    (hn : data.length ≤ buffer.length) (h : buffer.length < p + data.length) {k : ℕ}
    (hk : k < buffer.length) :
    (overwrite (overwrite buffer p (data.take (buffer.length - p))) (restart buffer)
      (data.take (wrapped data buffer p)))[k]? =
        if restart buffer ≤ k ∧ k < restart buffer + wrapped data buffer p then
          data[k - restart buffer]?
        else if p ≤ k then data[k - p]?
        else buffer[k]? := by
  obtain ⟨hfirst, hsecond, hend⟩ := length_pieces hp hp32 hn h
  have hfits : p + (data.take (buffer.length - p)).length ≤ buffer.length := by omega
  rw [getElem?_overwrite (by rw [length_overwrite hfits, hsecond]; exact hend),
    getElem?_overwrite hfits, hfirst, hsecond]
  split_ifs with hin hcopied hhigh hhigh
  · rw [List.getElem?_take_of_lt (by omega)]
  · rw [List.getElem?_take_of_lt (by omega)]
  · exact absurd hcopied.1 hhigh
  · exact absurd ⟨hhigh, by omega⟩ hcopied
  · rfl

/-- The two pieces leave what is wanted when the second one fits. -/
theorem wraps_iff (hp : p < buffer.length) (hp32 : p < 2 ^ 32) (hn : data.length ≤ buffer.length)
    (h : buffer.length < p + data.length) :
    (∀ k < buffer.length,
      (overwrite (overwrite buffer p (data.take (buffer.length - p))) (restart buffer)
        (data.take (wrapped data buffer p)))[k]? = ringByte data buffer p k) ↔
      SecondPieceFits data buffer p := by
  obtain ⟨-, -, hend⟩ := length_pieces hp hp32 hn h
  have hlow : wrapped data buffer p ≤ p := by
    unfold wrapped
    omega
  constructor
  · refine fun hall => ⟨fun k hk hbefore => ?_, fun j hj => ?_⟩
    · have hbyte := hall k (by omega)
      rw [getElem?_wraps hp hp32 hn h (by omega), if_neg (by omega), if_neg (by omega),
        ringByte, if_pos hk] at hbyte
      exact hbyte
    · have hbyte := hall (restart buffer + j) (by omega)
      rw [getElem?_wraps hp hp32 hn h (by omega), if_pos (by omega),
        Nat.add_sub_cancel_left] at hbyte
      exact hbyte
  · rintro ⟨hbefore, hsecond⟩ k hk
    rw [getElem?_wraps hp hp32 hn h hk]
    split_ifs with hin hhigh
    · obtain ⟨j, rfl⟩ := Nat.exists_eq_add_of_le hin.1
      rw [Nat.add_sub_cancel_left]
      exact hsecond j (by omega)
    · rw [ringByte, if_neg (by omega), if_pos (by omega)]
    · rw [ringByte]
      split_ifs with hwrap hcopied
      · exact hbefore k hwrap (by omega)
      · exact absurd hcopied.1 hhigh
      · rfl

/-- **When the data are in the ring:** the loop always ends, and it leaves what is wanted
exactly when the data fit before the end of the buffer, or the second piece happens to
be right. -/
theorem dump_to_buffer_iff (data buffer : List UInt8) (p : ℕ) (hp : p < buffer.length)
    (hp32 : p < 2 ^ 32) (hn : data.length ≤ buffer.length) :
    (dumpToBuffer data buffer p).isSome = true ∧
      ((∃ result, dumpToBuffer data buffer p = some result ∧ RingCopied data buffer p result) ↔
        p + data.length ≤ buffer.length ∨ SecondPieceFits data buffer p) := by
  rcases Nat.lt_or_ge buffer.length (p + data.length) with hwraps | hfits
  · obtain ⟨hfirst, hsecond, hend⟩ := length_pieces hp hp32 hn hwraps
    have hlength : (overwrite buffer p (data.take (buffer.length - p))).length = buffer.length :=
      length_overwrite (by omega)
    have hlength' : (overwrite (overwrite buffer p (data.take (buffer.length - p)))
        (restart buffer) (data.take (wrapped data buffer p))).length =
          (overwrite buffer p (data.take (buffer.length - p))).length :=
      length_overwrite (by omega)
    rw [dumpToBuffer_wraps hp hp32 hn hwraps]
    refine ⟨rfl, ?_⟩
    simp only [Option.some.injEq, exists_eq_left', ringCopied_iff hp hn, hlength', hlength,
      true_and, wraps_iff hp hp32 hn hwraps]
    exact (or_iff_right (by omega)).symm
  · rw [dumpToBuffer_fits hfits]
    refine ⟨rfl, iff_of_true ⟨_, rfl, ?_⟩ (Or.inl hfits)⟩
    refine (ringCopied_iff hp hn).2 ⟨length_overwrite hfits, fun k _ => ?_⟩
    have hnone : ¬ k < wrapped data buffer p := by unfold wrapped; omega
    rw [getElem?_overwrite hfits, ringByte, if_neg hnone]

/-- Bytes that repeat, around the end of the buffer. -/
theorem dump_to_buffer_iff_repeated :
    ∃ result, dumpToBuffer [7, 8, 7] [0, 0, 0, 0] 2 = some result ∧
      RingCopied [7, 8, 7] [0, 0, 0, 0] 2 result :=
  (dump_to_buffer_iff [7, 8, 7] [0, 0, 0, 0] 2 (by decide) (by decide) (by decide)).2.2
    (Or.inr ((secondPieceFits_iff (by decide)).2 (by decide)))

/-- **The end of the data is lost:** three bytes at the last place but one of four. -/
theorem dumped_start_again :
    dumpToBuffer [1, 2, 3] [0, 0, 0, 0] 2 = some [1, 0, 1, 2] ∧
      ¬ RingCopied [1, 2, 3] [0, 0, 0, 0] 2 [1, 0, 1, 2] := by
  refine ⟨by decide, fun h => ?_⟩
  have hbyte := h.copied 2 (by decide)
  exact absurd hbyte (by decide)

end Readout
end SNBModules
