import Mathlib.Tactic.Ring
import DescriptorTables.Proofs.EntryBits
import DescriptorTables.Proofs.Reading

namespace DescriptorTables

/-- The numbers in the bytes of a slot and of what follows it. -/
abbrev SlotBytes := Nat → Nat

/-- The bytes of a region from an offset on, with zeros past its end. -/
def Region.bytesFrom (region : Region) (offset : Nat) : SlotBytes :=
  fun k => (region.toList.getD (offset + k) 0).toNat

namespace SlotBytes

def isNonSystem (b : SlotBytes) : Bool :=
  (b 5).testBit 4

def type (b : SlotBytes) : Nat :=
  b 5 % 16

def ring (b : SlotBytes) : Nat :=
  b 5 / 32 % 4

def isPresent (b : SlotBytes) : Bool :=
  (b 5).testBit 7

def isPageGranular (b : SlotBytes) : Bool :=
  (b 6).testBit 7

def base (b : SlotBytes) : Nat :=
  b 2 + 2 ^ 8 * b 3 + 2 ^ 16 * b 4 + 2 ^ 24 * b 7

def storedLimit (b : SlotBytes) : Nat :=
  b 0 + 2 ^ 8 * b 1 + 2 ^ 16 * (b 6 % 16)

def limit (b : SlotBytes) : Nat :=
  if b.isPageGranular then 4096 * b.storedLimit + 4095 else b.storedLimit

def selector (b : SlotBytes) : Nat :=
  b 2 + 2 ^ 8 * b 3

def offset (b : SlotBytes) : Nat :=
  b 0 + 2 ^ 8 * b 1 + 2 ^ 16 * b 6 + 2 ^ 24 * b 7

def extension (b : SlotBytes) : Mode → Nat
  | .protected32 => 0
  | .long64 => b 8 + 2 ^ 8 * b 9 + 2 ^ 16 * b 10 + 2 ^ 24 * b 11

def quadword (b : SlotBytes) (first : Nat) : Nat :=
  b first + 2 ^ 8 * b (first + 1) + 2 ^ 16 * b (first + 2) + 2 ^ 24 * b (first + 3) +
    2 ^ 32 * b (first + 4) + 2 ^ 40 * b (first + 5) + 2 ^ 48 * b (first + 6) + 2 ^ 56 * b (first + 7)

/-- The eight bytes from one on are those of a quadword. -/
def Spells (b : SlotBytes) (first : Nat) (word : Quadword) : Prop :=
  ∀ k < 8, b (first + k) = word.toNat / 2 ^ (8 * k) % 2 ^ 8

end SlotBytes

namespace BitRange

theorem toNat_get (r : BitRange) (word : Quadword) :
    (r.get word).toNat = word.toNat / 2 ^ r.start % 2 ^ r.width := by
  have hw : 2 ^ r.width ≤ 2 ^ 64 :=
    Nat.pow_le_pow_right (by decide) (Nat.le_trans (Nat.le_add_left _ _) r.start_add_width_le)
  rw [get, BitVec.toNat_setWidth, BitVec.extractLsb'_toNat, Nat.shiftRight_eq_div_pow]
  exact Nat.mod_eq_of_lt (Nat.lt_of_lt_of_le (Nat.mod_lt _ (Nat.two_pow_pos _)) hw)

theorem toNat_or_shiftLeft (k : Nat) (lower upper : Quadword) (hl : lower.toNat < 2 ^ k)
    (hu : 2 ^ k * upper.toNat < 2 ^ 64) :
    (lower ||| (upper <<< k)).toNat = lower.toNat + 2 ^ k * upper.toNat := by
  have hor := Nat.shiftLeft_add_eq_or_of_lt hl upper.toNat
  rw [Nat.shiftLeft_eq, Nat.mul_comm] at hor
  rw [BitVec.toNat_or, BitVec.toNat_shiftLeft, Nat.shiftLeft_eq, Nat.mul_comm, Nat.mod_eq_of_lt hu,
    Nat.or_comm, ← hor, Nat.add_comm]

theorem toNat_join (r s : BitRange) (word : Quadword) (h : r.width + s.width ≤ 64) :
    (r.join s word).toNat =
      word.toNat / 2 ^ r.start % 2 ^ r.width +
        2 ^ r.width * (word.toNat / 2 ^ s.start % 2 ^ s.width) := by
  have hr := toNat_lt_of_fits r _ (fits_get r word)
  have hs := toNat_lt_of_fits s _ (fits_get s word)
  have hu : 2 ^ r.width * (s.get word).toNat < 2 ^ 64 :=
    calc 2 ^ r.width * (s.get word).toNat
        < 2 ^ r.width * 2 ^ s.width := Nat.mul_lt_mul_of_pos_left hs (Nat.two_pow_pos _)
      _ = 2 ^ (r.width + s.width) := (Nat.pow_add 2 _ _).symm
      _ ≤ 2 ^ 64 := Nat.pow_le_pow_right (by decide) h
  rw [join, toNat_or_shiftLeft r.width _ _ hr hu, toNat_get, toNat_get]

end BitRange

namespace SlotBytes

theorem Spells.toNat {b : SlotBytes} {first : Nat} {word : Quadword} (h : b.Spells first word) :
    word.toNat = b.quadword first := by
  have hfirst : b first = word.toNat / 2 ^ (8 * 0) % 2 ^ 8 := h 0 (by decide)
  have hword := word.isLt
  rw [quadword, hfirst, h 1 (by decide), h 2 (by decide), h 3 (by decide), h 4 (by decide),
    h 5 (by decide), h 6 (by decide), h 7 (by decide)]
  omega

theorem div_mod_two_pow_add (n i j k : Nat) :
    n / 2 ^ i % 2 ^ (j + k) = n / 2 ^ i % 2 ^ j + 2 ^ j * (n / 2 ^ (i + j) % 2 ^ k) := by
  rw [Nat.pow_add, Nat.mod_mul, Nat.div_div_eq_div_mul, ← Nat.pow_add]

theorem Spells.eq_zero_iff {b : SlotBytes} {first : Nat} {word : Quadword}
    (h : b.Spells first word) : word = 0 ↔ ∀ k < 8, b (first + k) = 0 := by
  constructor
  · intro hword k hk
    rw [h k hk, hword]
    exact (congrArg (· % 2 ^ 8) (Nat.zero_div _)).trans (Nat.zero_mod _)
  · intro hzero
    apply BitVec.eq_of_toNat_eq
    rw [h.toNat, SlotBytes.quadword, hzero 1 (by decide), hzero 2 (by decide), hzero 3 (by decide),
      hzero 4 (by decide), hzero 5 (by decide), hzero 6 (by decide), hzero 7 (by decide)]
    exact hzero 0 (by decide)

theorem Spells.pair {b : SlotBytes} {first : Nat} {word : Quadword} (h : b.Spells first word)
    (k : Nat) (hk : k + 1 < 8) :
    word.toNat / 2 ^ (8 * k) % 2 ^ 16 = b (first + k) + 2 ^ 8 * b (first + (k + 1)) := by
  rw [h k (Nat.lt_of_succ_lt hk), h (k + 1) hk, Nat.mul_succ, ← div_mod_two_pow_add]

theorem Spells.extension {b : SlotBytes} {high : Quadword} (h : b.Spells 8 high) :
    (Bits.extension.get high).toNat = b.extension .long64 := by
  have hlower : high.toNat / 2 ^ 0 % 2 ^ 16 = b 8 + 2 ^ 8 * b 9 := h.pair 0 (by decide)
  have hupper : high.toNat / 2 ^ 16 % 2 ^ 16 = b 10 + 2 ^ 8 * b 11 := h.pair 2 (by decide)
  calc (Bits.extension.get high).toNat
      = high.toNat / 2 ^ 0 % 2 ^ 32 := BitRange.toNat_get Bits.extension high
    _ = high.toNat / 2 ^ 0 % 2 ^ 16 + 2 ^ 16 * (high.toNat / 2 ^ 16 % 2 ^ 16) :=
      div_mod_two_pow_add high.toNat 0 16 16
    _ = b.extension .long64 := by rw [hlower, hupper, SlotBytes.extension]; ring

variable {b : SlotBytes} {low : Quadword}

theorem Spells.within (h : b.Spells 0 low) (k i width : Nat) (hk : k < 8) (hi : i + width ≤ 8) :
    low.toNat / 2 ^ (8 * k + i) % 2 ^ width = b k / 2 ^ i % 2 ^ width := by
  have hb := h k hk
  have hsplit : 2 ^ 8 = 2 ^ i * 2 ^ (8 - i) := by
    rw [← Nat.pow_add, Nat.add_sub_cancel' (by omega)]
  have hdvd : 2 ^ width ∣ 2 ^ (8 - i) := Nat.pow_dvd_pow 2 (by omega)
  rw [Nat.zero_add] at hb
  rw [hb, hsplit, Nat.mod_mul_right_div_self, Nat.mod_mod_of_dvd _ hdvd, Nat.pow_add,
    Nat.div_div_eq_div_mul]

theorem Spells.isSet (h : b.Spells 0 low) (k i : Nat) (hk : k < 8) (hi : i < 8)
    (hbit : 8 * k + i + 1 ≤ 64) : Bits.isSet (.bit (8 * k + i) hbit) low = (b k).testBit i := by
  have hb := h k hk
  rw [Nat.zero_add] at hb
  have hset : Bits.isSet (.bit (8 * k + i) hbit) low = low.toNat.testBit (8 * k + i) := rfl
  rw [hset, hb, Nat.testBit_mod_two_pow, decide_eq_true hi, Bool.true_and, Nat.testBit_div_two_pow,
    Nat.add_comm]

theorem Spells.isNonSystem (h : b.Spells 0 low) :
    Bits.isSet Bits.nonSystem low = b.isNonSystem :=
  h.isSet 5 4 (by decide) (by decide) (by decide)

theorem Spells.isPresent (h : b.Spells 0 low) : Bits.isSet Bits.present low = b.isPresent :=
  h.isSet 5 7 (by decide) (by decide) (by decide)

theorem Spells.pageGranular (h : b.Spells 0 low) :
    Bits.pageGranular low = .page ↔ b.isPageGranular := by
  have hset : Bits.isSet Bits.granularity low = b.isPageGranular :=
    h.isSet 6 7 (by decide) (by decide) (by decide)
  rw [Bits.pageGranular, hset]
  cases b.isPageGranular <;> simp

theorem Spells.type (h : b.Spells 0 low) : (Bits.type.get low).toNat = b.type := by
  have hbits := h.within 5 0 4 (by decide) (by decide)
  rw [Nat.pow_zero, Nat.div_one] at hbits
  exact (BitRange.toNat_get Bits.type low).trans hbits

theorem Spells.ring (h : b.Spells 0 low) : (Bits.ring low).toNat = b.ring := by
  have hbits : (Bits.privilege.get low).toNat = b 5 / 2 ^ 5 % 2 ^ 2 :=
    (BitRange.toNat_get Bits.privilege low).trans (h.within 5 5 2 (by decide) (by decide))
  rw [Bits.ring, BitVec.toNat_setWidth, hbits, Nat.mod_mod]
  rfl

theorem Spells.base (h : b.Spells 0 low) : (Bits.base low).toNat = b.base := by
  have hlower : low.toNat / 2 ^ 16 % 2 ^ 16 = b 2 + 2 ^ 8 * b 3 := h.pair 2 (by decide)
  have hmiddle : b 4 = low.toNat / 2 ^ 32 % 2 ^ 8 := h 4 (by decide)
  have hupper : b 7 = low.toNat / 2 ^ 56 % 2 ^ 8 := h 7 (by decide)
  calc (Bits.base low).toNat
      = low.toNat / 2 ^ 16 % 2 ^ 24 + 2 ^ 24 * (low.toNat / 2 ^ 56 % 2 ^ 8) :=
      BitRange.toNat_join Bits.baseLow Bits.baseHigh low (by decide)
    _ = low.toNat / 2 ^ 16 % 2 ^ 16 + 2 ^ 16 * (low.toNat / 2 ^ 32 % 2 ^ 8) +
        2 ^ 24 * (low.toNat / 2 ^ 56 % 2 ^ 8) := by rw [div_mod_two_pow_add low.toNat 16 16 8]
    _ = b.base := by rw [hlower, ← hmiddle, ← hupper, SlotBytes.base]

theorem Spells.offset (h : b.Spells 0 low) : (Bits.offset low).toNat = b.offset := by
  have hlower : low.toNat / 2 ^ 0 % 2 ^ 16 = b 0 + 2 ^ 8 * b 1 := h.pair 0 (by decide)
  have hupper : low.toNat / 2 ^ 48 % 2 ^ 16 = b 6 + 2 ^ 8 * b 7 := h.pair 6 (by decide)
  calc (Bits.offset low).toNat
      = low.toNat / 2 ^ 0 % 2 ^ 16 + 2 ^ 16 * (low.toNat / 2 ^ 48 % 2 ^ 16) :=
      BitRange.toNat_join Bits.offsetLow Bits.offsetHigh low (by decide)
    _ = b.offset := by rw [hlower, hupper, SlotBytes.offset]; ring

theorem Spells.storedLimit (h : b.Spells 0 low) : (Bits.limit low).toNat = b.storedLimit := by
  have hlower : low.toNat / 2 ^ 0 % 2 ^ 16 = b 0 + 2 ^ 8 * b 1 := h.pair 0 (by decide)
  have hupper : low.toNat / 2 ^ 48 % 2 ^ 4 = b 6 / 2 ^ 0 % 2 ^ 4 :=
    h.within 6 0 4 (by decide) (by decide)
  have hwide : (Bits.limit low).toNat = ((Bits.limit low).setWidth 64).toNat :=
    (BitVec.toNat_setWidth_of_le (by decide)).symm
  calc (Bits.limit low).toNat
      = (Bits.limitLow.join Bits.limitHigh low).toNat := by rw [hwide, Bits.setWidth_limit]
    _ = low.toNat / 2 ^ 0 % 2 ^ 16 + 2 ^ 16 * (low.toNat / 2 ^ 48 % 2 ^ 4) :=
      BitRange.toNat_join Bits.limitLow Bits.limitHigh low (by decide)
    _ = b.storedLimit := by rw [hlower, hupper, Nat.pow_zero, Nat.div_one]; rfl

theorem Spells.limit (h : b.Spells 0 low) :
    ((Bits.pageGranular low).scale (Bits.limit low)).toNat = b.limit := by
  have hscale := (Bits.pageGranular low).toNat_scale (Bits.limit low) (Bits.toNat_limit_lt low)
  rw [h.storedLimit] at hscale
  simp only [h.pageGranular] at hscale
  exact hscale

theorem Spells.selector (h : b.Spells 0 low) :
    ((Bits.selector.get low).setWidth 16).toNat = b.selector := by
  have hget : (Bits.selector.get low).toNat = b.selector :=
    (BitRange.toNat_get Bits.selector low).trans (h.pair 2 (by decide))
  have hlt : (Bits.selector.get low).toNat < 2 ^ 16 :=
    BitRange.toNat_lt_of_fits _ _ (BitRange.fits_get Bits.selector low)
  rw [BitVec.toNat_setWidth, Nat.mod_eq_of_lt hlt, hget]

theorem Spells.fifthByte (h : b.Spells 0 low) (width : Nat) (hwidth : 32 + width ≤ 64)
    (hle : width ≤ 8) :
    ((BitRange.get ⟨32, width, hwidth⟩ low).setWidth 8).toNat = b 4 % 2 ^ width := by
  have hbits := h.within 4 0 width (by decide) (by omega)
  rw [Nat.pow_zero, Nat.div_one] at hbits
  have hget : (BitRange.get ⟨32, width, hwidth⟩ low).toNat = b 4 % 2 ^ width :=
    (BitRange.toNat_get ⟨32, width, hwidth⟩ low).trans hbits
  have hlt : b 4 % 2 ^ width < 2 ^ 8 :=
    Nat.lt_of_lt_of_le (Nat.mod_lt _ (Nat.two_pow_pos width)) (Nat.pow_le_pow_right (by decide) hle)
  rw [BitVec.toNat_setWidth, hget, Nat.mod_eq_of_lt hlt]

end SlotBytes

namespace Region

theorem spells_bytesFrom (region : Region) (offset first : Nat) (word : Quadword)
    (h : region.window (offset + first) 8 = word.bytes) :
    (region.bytesFrom offset).Spells first word := by
  intro k hk
  have hlength : k < word.bytes.length := by
    rw [Quadword.length_bytes]
    exact hk
  have hbyte : region.toList[offset + (first + k)]? = some (word.extractLsb' (8 * k) 8) := by
    have hget := congrArg (fun bytes => bytes[k]?) h
    simp only [window, List.getElem?_take_of_lt hk, List.getElem?_drop,
      List.getElem?_eq_getElem hlength, Quadword.getElem_bytes] at hget
    rw [← hget, Nat.add_assoc]
  rw [bytesFrom, List.getD_eq_getElem?_getD, hbyte, Option.getD_some, BitVec.extractLsb'_toNat,
    Nat.shiftRight_eq_div_pow]

end Region

end DescriptorTables
