import Mathlib

namespace AiFirewall

/-!
# Bit strings, prefix masks and big-endian bytes

A word is read as a list of bits, most significant first.  On that list a
network mask is a length, "the same network" is "the same leading bits", and
the bytes of a word in network order are consecutive pieces.  Nothing here
knows about addresses or ports.
-/

namespace BitPrefix

/-- The bits of a word, most significant first. -/
def bits {width : Nat} (word : BitVec width) : List Bool :=
  List.ofFn fun index : Fin width => word.getMsbD index

@[simp] theorem length_bits
    {width : Nat}
    (word : BitVec width) :
    (bits word).length = width := by
  simp [bits]

@[simp] theorem getElem_bits
    {width : Nat}
    (word : BitVec width)
    (index : Nat)
    (inBounds : index < (bits word).length) :
    (bits word)[index] = word.getMsbD index := by
  simp [bits]

/-- A word is determined by its bits. -/
theorem bits_injective
    {width : Nat}
    {first second : BitVec width}
    (same : bits first = bits second) :
    first = second := by
  apply BitVec.eq_of_getMsbD_eq
  intro index inBounds
  have sameBit :=
    congrArg (fun items : List Bool => items[index]?) same
  simpa [List.getElem?_eq_getElem, inBounds] using sameBit

/-- The bits of a concatenation are the bits of its parts, high part first. -/
theorem bits_append
    {highWidth lowWidth : Nat}
    (high : BitVec highWidth)
    (low : BitVec lowWidth) :
    bits (high ++ low) = bits high ++ bits low := by
  apply List.ext_getElem
  · simp
  · intro index inBounds _
    rw [getElem_bits, List.getElem_append, BitVec.getMsbD_append]
    by_cases inHigh : index < highWidth
    · simp [inHigh, Nat.not_le.mpr inHigh]
    · simp [inHigh, Nat.le_of_not_lt inHigh]

/-- The mask that keeps the `length` leading bits of a word. -/
def prefixMask (width length : Nat) : BitVec width :=
  if length = 0 then 0 else BitVec.allOnes width <<< (width - length)

/-- A prefix mask has exactly its leading bits set. -/
theorem getMsbD_prefixMask
    {width length : Nat}
    (fits : length ≤ width)
    (index : Nat) :
    (prefixMask width length).getMsbD index =
      decide (index < length) := by
  unfold prefixMask
  split
  · simp_all
  · rw [BitVec.getMsbD_shiftLeft, BitVec.getMsbD_allOnes]
    congr 1
    simp only [eq_iff_iff]
    omega

/-- The number of leading ones, as `u32::leading_ones` counts them. -/
def leadingOnes {width : Nat} (word : BitVec width) : Nat :=
  ((bits word).takeWhile id).length

/-- The leading ones of a prefix mask are its length. -/
theorem leadingOnes_prefixMask
    {width length : Nat}
    (fits : length ≤ width) :
    leadingOnes (prefixMask width length) = length := by
  have shape :
      bits (prefixMask width length) =
        List.replicate length true ++
          List.replicate (width - length) false := by
    apply List.ext_getElem
    · simp; omega
    · intro index inBounds _
      rw [getElem_bits, getMsbD_prefixMask fits, List.getElem_append]
      by_cases inPrefix : index < length
      · simp [inPrefix]
      · simp [inPrefix]
  unfold leadingOnes
  rw [shape, List.takeWhile_append_of_pos (by simp)]
  cases width - length <;> simp [List.replicate_succ]

/-- Equal after masking means equal leading bits. -/
theorem and_prefixMask_eq_iff
    {width length : Nat}
    (fits : length ≤ width)
    (first second : BitVec width) :
    first &&& prefixMask width length =
        second &&& prefixMask width length ↔
      (bits first).take length = (bits second).take length := by
  constructor
  · intro same
    apply List.ext_getElem
    · simp
    · intro index inBounds _
      have inPrefix : index < length := by
        simp at inBounds
        omega
      have sameBit := congrArg (fun word => word.getMsbD index) same
      simpa [BitVec.getMsbD_and, getMsbD_prefixMask fits, inPrefix]
        using sameBit
  · intro same
    apply BitVec.eq_of_getMsbD_eq
    intro index inBounds
    simp only [BitVec.getMsbD_and, getMsbD_prefixMask fits]
    by_cases inPrefix : index < length
    · have sameBit :=
        congrArg (fun items : List Bool => items[index]?) same
      simp [inPrefix, inBounds] at sameBit
      simp [sameBit]
    · simp [inPrefix]

/-- Masking twice with one prefix mask is masking once. -/
theorem and_prefixMask_and_prefixMask
    {width : Nat}
    (length : Nat)
    (word : BitVec width) :
    word &&& prefixMask width length &&& prefixMask width length =
      word &&& prefixMask width length := by
  rw [BitVec.and_assoc, BitVec.and_self]

/-- Of two prefix masks, the shorter one is what they share. -/
theorem prefixMask_and_prefixMask
    {width short long : Nat}
    (shorter : short ≤ long)
    (fits : long ≤ width) :
    prefixMask width long &&& prefixMask width short =
      prefixMask width short := by
  apply BitVec.eq_of_getMsbD_eq
  intro index inBounds
  rw [BitVec.getMsbD_and, getMsbD_prefixMask fits,
    getMsbD_prefixMask (le_trans shorter fits)]
  by_cases inShort : index < short
  · simp [inShort, lt_of_lt_of_le inShort shorter]
  · simp [inShort]

/-- Masking clears the trailing bits. -/
theorem toNat_and_prefixMask
    {width length : Nat}
    (fits : length ≤ width)
    (word : BitVec width) :
    (word &&& prefixMask width length).toNat =
      word.toNat / 2 ^ (width - length) * 2 ^ (width - length) := by
  have cleared :
      word &&& prefixMask width length =
        word >>> (width - length) <<< (width - length) := by
    apply BitVec.eq_of_getMsbD_eq
    intro index inBounds
    rw [BitVec.getMsbD_and, getMsbD_prefixMask fits, BitVec.getMsbD_shiftLeft,
      BitVec.getMsbD_ushiftRight]
    by_cases inPrefix : index < length
    · have kept : index + (width - length) < width := by omega
      simp [inPrefix, kept]
    · have dropped : ¬index + (width - length) < width := by omega
      simp [inPrefix, dropped]
  have bounded := word.isLt
  rw [cleared, BitVec.toNat_shiftLeft, BitVec.toNat_ushiftRight,
    Nat.shiftLeft_eq, Nat.shiftRight_eq_div_pow]
  exact Nat.mod_eq_of_lt (lt_of_le_of_lt (Nat.div_mul_le_self _ _) bounded)

/-- How many words a prefix mask maps to one network. -/
theorem toNat_not_prefixMask
    {width length : Nat}
    (fits : length ≤ width) :
    (~~~prefixMask width length).toNat + 1 = 2 ^ (width - length) := by
  have masked := toNat_and_prefixMask fits (BitVec.allOnes width)
  have powers : 2 ^ length * 2 ^ (width - length) = 2 ^ width := by
    rw [← Nat.pow_add]
    congr 1
    omega
  have positive : 0 < 2 ^ (width - length) := Nat.two_pow_pos _
  have long : 0 < 2 ^ length := Nat.two_pow_pos _
  have quotient :
      (2 ^ width - 1) / 2 ^ (width - length) = 2 ^ length - 1 := by
    refine Nat.div_eq_of_lt_le ?_ ?_
    · rw [Nat.sub_mul, powers, Nat.one_mul]
      exact Nat.sub_le_sub_left positive _
    · rw [Nat.sub_add_cancel long, powers]
      exact Nat.sub_lt (Nat.two_pow_pos _) Nat.one_pos
  rw [BitVec.allOnes_and, BitVec.toNat_allOnes, quotient, Nat.sub_mul,
    powers, Nat.one_mul] at masked
  rw [BitVec.toNat_not, masked]
  have below : 2 ^ (width - length) ≤ 2 ^ width :=
    Nat.pow_le_pow_right (by decide) (Nat.sub_le _ _)
  omega

/-- A network is an interval of words. -/
theorem and_prefixMask_eq_iff_interval
    {width length : Nat}
    (fits : length ≤ width)
    {network : BitVec width}
    (masked : network &&& prefixMask width length = network)
    (word : BitVec width) :
    word &&& prefixMask width length = network ↔
      ∃ offset < (~~~prefixMask width length).toNat + 1,
        word.toNat = network.toNat + offset := by
  have size := toNat_not_prefixMask fits
  have isMultiple := (toNat_and_prefixMask fits network).symm.trans
    (congrArg BitVec.toNat masked)
  have positive : 0 < 2 ^ (width - length) := Nat.two_pow_pos _
  rw [size, BitVec.toNat_eq, toNat_and_prefixMask fits]
  constructor
  · intro same
    refine ⟨word.toNat % 2 ^ (width - length), Nat.mod_lt _ positive, ?_⟩
    rw [← same, Nat.mul_comm]
    exact (Nat.div_add_mod _ _).symm
  · rintro ⟨offset, inside, same⟩
    rw [same, ← isMultiple, Nat.add_comm, Nat.add_mul_div_right _ _ positive,
      Nat.div_eq_of_lt inside, Nat.zero_add]
/-- A network ends before the words do. -/
theorem network_fits
    {width length : Nat}
    (fits : length ≤ width)
    {network : BitVec width}
    (masked : network &&& prefixMask width length = network) :
    network.toNat + (~~~prefixMask width length).toNat < 2 ^ width := by
  have size := toNat_not_prefixMask fits
  have isMultiple := (toNat_and_prefixMask fits network).symm.trans
    (congrArg BitVec.toNat masked)
  have powers : 2 ^ width = 2 ^ length * 2 ^ (width - length) := by
    rw [← Nat.pow_add, Nat.add_sub_cancel' fits]
  have bounded := network.isLt
  rw [powers, ← isMultiple] at bounded
  have quotient := Nat.lt_of_mul_lt_mul_right bounded
  have next := Nat.mul_le_mul_right (2 ^ (width - length)) quotient
  rw [Nat.succ_mul, isMultiple] at next
  omega

/-- The two bytes of a 16-bit word in network order. -/
def bytes16 (word : BitVec 16) : List (BitVec 8) :=
  [word.extractLsb' 8 8, word.extractLsb' 0 8]

/-- The four bytes of a 32-bit word in network order. -/
def bytes32 (word : BitVec 32) : List (BitVec 8) :=
  [word.extractLsb' 24 8, word.extractLsb' 16 8,
    word.extractLsb' 8 8, word.extractLsb' 0 8]

/-- The bits of a byte string, first byte first. -/
def bitsOfBytes (data : List (BitVec 8)) : List Bool :=
  data.flatMap bits

theorem bitsOfBytes_append (first second : List (BitVec 8)) :
    bitsOfBytes (first ++ second) =
      bitsOfBytes first ++ bitsOfBytes second := by
  simp [bitsOfBytes]

/-- Network order keeps the bits of a 16-bit word in order. -/
theorem bitsOfBytes_bytes16 (word : BitVec 16) :
    bitsOfBytes (bytes16 word) = bits word := by
  have shape :
      word.extractLsb' 8 8 ++ word.extractLsb' 0 8 = word := by
    ext index inBounds
    simp
    grind
  calc
    bitsOfBytes (bytes16 word) =
        bits (word.extractLsb' 8 8) ++ bits (word.extractLsb' 0 8) := by
      simp [bitsOfBytes, bytes16]
    _ = bits (word.extractLsb' 8 8 ++ word.extractLsb' 0 8) :=
      (bits_append _ _).symm
    _ = bits word :=
      congrArg bits shape

/-- Network order keeps the bits of a 32-bit word in order. -/
theorem bitsOfBytes_bytes32 (word : BitVec 32) :
    bitsOfBytes (bytes32 word) = bits word := by
  have shape :
      word.extractLsb' 24 8 ++ (word.extractLsb' 16 8 ++
        (word.extractLsb' 8 8 ++ word.extractLsb' 0 8)) = word := by
    ext index inBounds
    simp
    grind
  calc
    bitsOfBytes (bytes32 word) =
        bits (word.extractLsb' 24 8) ++
          (bits (word.extractLsb' 16 8) ++
            (bits (word.extractLsb' 8 8) ++
              bits (word.extractLsb' 0 8))) := by
      simp [bitsOfBytes, bytes32]
    _ = bits
          (word.extractLsb' 24 8 ++ (word.extractLsb' 16 8 ++
            (word.extractLsb' 8 8 ++ word.extractLsb' 0 8))) := by
      rw [bits_append, bits_append, bits_append]
    _ = bits word :=
      congrArg bits shape

end BitPrefix

end AiFirewall
