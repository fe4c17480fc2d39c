/-
Module: CodeNav.Proofs.Gzip.Stored
Purpose: Members that are written are read back, those of stored blocks among them.
Main exports:
  Gzip.Bits.take?_octet, Gzip.expandBlocks_storedBlocks, Gzip.decompress_storedMember, Gzip.stored,
  Dump.inflate_compress
-/
import CodeNav.Dump.Text
import CodeNav.Proofs.Success

namespace CodeNav

namespace Gzip

/-! ### Members -/

/-- Octets that start otherwise are no member. -/
theorem isGzip_eq_false {octets : List UInt8} (other : octets.head? ≠ some 0x1F) :
    isGzip octets = false := by
  rcases octets with _ | ⟨a, _ | ⟨b, rest⟩⟩
  · rfl
  · simp [isGzip]
  · have first : a ≠ 0x1F := fun same => other (congrArg some same)
    simp [isGzip, first]

/-- What can be read as a member starts as one. -/
theorem isGzip_of_decompress {limit : Option Nat} {octets : List UInt8} {outcome : Outcome}
    (read : decompress limit octets = .ok outcome) : isGzip octets = true := by
  unfold decompress skipHeader at read
  obtain ⟨_, header, _⟩ := Success.bind_eq_ok.mp read
  obtain ⟨⟨fixed, rest⟩, taken, header⟩ := Success.bind_eq_ok.mp header
  dsimp only at header
  split at header
  · unfold takeExactly at taken
    split at taken
    · cases taken
    · rw [List.splitAt_eq] at taken
      have start := congrArg (List.take 2) (congrArg Prod.fst (Except.ok.inj taken))
      rw [List.take_take] at start
      exact beq_iff_eq.mpr start
  · cases header

/-! ### Numbers as octets -/

theorem length_toLittleEndian (size n : Nat) : (toLittleEndian size n).length = size := by
  induction size generalizing n with
  | zero => rfl
  | succ size ih => rw [toLittleEndian, List.length_cons, ih]

/-- Of a number, what fits is read back. -/
theorem littleEndian_toLittleEndian (size n : Nat) :
    littleEndian (toLittleEndian size n) = n % capacity (8 * size) := by
  induction size generalizing n with
  | zero =>
      rw [Nat.mul_zero, capacity_zero, Nat.mod_one]
      rfl
  | succ size ih =>
      have octet : (UInt8.ofNat (n % 256)).toNat = n % 256 :=
        UInt8.toNat_ofNat_of_lt' (Nat.mod_lt n (by decide))
      change (UInt8.ofNat (n % 256)).toNat + 256 * littleEndian (toLittleEndian size (n / 256)) = _
      rw [octet, ih, Nat.mul_succ, Nat.add_comm (8 * size) 8, capacity_add, Nat.mod_mul]
      rfl

/-- A number of 16 bits as its two octets. -/
theorem exists_octets {n : Nat} (fits : n < 0x10000) :
    ∃ low high : UInt8, toLittleEndian 2 n = [low, high] ∧ low.toNat + 256 * high.toNat = n := by
  refine ⟨_, _, rfl, ?_⟩
  exact (littleEndian_toLittleEndian 2 n).trans (Nat.mod_eq_of_lt fits)

namespace Bits

/-! ### Bits of whole octets -/

theorem next?_succ {m : Nat} (octet : m < 256) (count : Nat) (rest : List UInt8) :
    next? ⟨.ofNat m, count + 1, rest⟩ = some (m % 2, ⟨.ofNat (m / 2), count, rest⟩) := by
  have low : (UInt8.ofNat m &&& 1).toNat = m % 2 := by
    rw [UInt8.toNat_and, UInt8.toNat_ofNat_of_lt' octet]
    exact Nat.and_one_is_mod m
  have high : UInt8.ofNat m >>> 1 = .ofNat (m / 2) := by
    apply UInt8.toNat.inj
    rw [UInt8.toNat_shiftRight, UInt8.toNat_ofNat_of_lt' octet,
      UInt8.toNat_ofNat_of_lt' (Nat.lt_of_le_of_lt (Nat.div_le_self m 2) octet)]
    exact Nat.shiftRight_succ m 0
  rw [next?, low, high]

/-- Bits of the octet under way are its remainder, and its quotient is left. -/
theorem take?_within (n count : Nat) (rest : List UInt8) {m : Nat} (octet : m < 256) :
    take? n ⟨.ofNat m, n + count, rest⟩ =
      some (m % capacity n, ⟨.ofNat (m / capacity n), count, rest⟩) := by
  induction n generalizing m with
  | zero => rw [capacity_zero, Nat.mod_one, Nat.div_one, Nat.zero_add]; rfl
  | succ n ih =>
      have half : m / 2 < 256 := Nat.lt_of_le_of_lt (Nat.div_le_self m 2) octet
      rw [take?, Nat.succ_add_eq_add_succ, Nat.add_succ, next?_succ octet]
      simp only [ih half, Option.bind_eq_bind, Option.bind_some, Option.pure_def]
      rw [capacity_succ, Nat.mod_mul, ← Nat.div_div_eq_div_mul]

/-- Eight bits from the start of an octet are the octet. -/
theorem take?_octet (pending b : UInt8) (rest : List UInt8) :
    take? 8 ⟨pending, 0, b :: rest⟩ = some (b.toNat, ofOctets rest) := by
  have fits : b.toNat < capacity 8 := b.toNat_lt
  have whole := take?_within 8 0 rest b.toNat_lt
  rw [UInt8.ofNat_toNat, Nat.mod_eq_of_lt fits, Nat.div_eq_of_lt fits] at whole
  exact whole

/-- Bits taken in two steps are taken in one. -/
theorem take?_add {m n low high : Nat} {s middle last : Bits}
    (first : take? m s = some (low, middle)) (second : take? n middle = some (high, last)) :
    take? (m + n) s = some (low + capacity m * high, last) := by
  induction m generalizing s low with
  | zero =>
      obtain ⟨rfl, rfl⟩ : 0 = low ∧ s = middle := by simpa [take?] using first
      rw [Nat.zero_add, second, Nat.zero_add, capacity_zero, Nat.one_mul]
  | succ m ih =>
      cases bit : s.next? with
      | none =>
          rw [take?, bit] at first
          cases first
      | some next =>
          obtain ⟨b, s'⟩ := next
          rw [take?, bit] at first
          cases later : take? m s' with
          | none =>
              change (take? m s').bind _ = _ at first
              rw [later] at first
              cases first
          | some found =>
              obtain ⟨bits, rest⟩ := found
              change (take? m s').bind _ = _ at first
              rw [later] at first
              obtain ⟨rfl, rfl⟩ := Prod.mk.inj (Option.some.inj first)
              rw [Nat.succ_add, take?, bit]
              change (take? (m + n) s').bind _ = _
              rw [ih later, capacity_succ, Nat.mul_assoc, Nat.add_assoc, ← Nat.mul_add]
              rfl

/-- Sixteen bits from the start of an octet are two octets. -/
theorem take?_two_octets (pending low high : UInt8) (rest : List UInt8) :
    take? 16 ⟨pending, 0, low :: high :: rest⟩ =
      some (low.toNat + 256 * high.toNat, ofOctets rest) :=
  take?_add (take?_octet pending low (high :: rest)) (take?_octet 0 high rest)

end Bits

/-! ### Stored blocks -/

theorem halting_ok {α : Type} (output : Array UInt8) (a : α) :
    halting output (.ok a) = .ok a :=
  rfl

theorem number_of_take? {n value : Nat} {s rest : Bits} (taken : s.take? n = some (value, rest)) :
    number n s = .ok (value, rest) := by
  rw [number, taken]

theorem copyStored_append (octets rest : List UInt8) (output : Array UInt8) :
    copyStored octets.length output (octets ++ rest) =
      .ok (output ++ octets.toArray, .ofOctets rest) := by
  induction octets generalizing output with
  | nil => simp [copyStored]
  | cons b octets ih =>
      rw [List.length_cons, List.cons_append, copyStored, ih]
      simp

/-- The octets of a stored block are added to the output. -/
theorem expandStored_block {octets : List UInt8} (fits : octets.length ≤ storedLimit)
    (rest : List UInt8) (output : Array UInt8) (pending : UInt8) (count : Nat) :
    expandStored output ⟨pending, count, toLittleEndian 2 octets.length
      ++ toLittleEndian 2 (0xFFFF - octets.length) ++ (octets ++ rest)⟩ =
        .ok (output ++ octets.toArray, .ofOctets rest) := by
  obtain ⟨low, high, length, lengthIs⟩ := exists_octets (Nat.lt_succ_of_le fits)
  obtain ⟨low', high', check, checkIs⟩ := exists_octets
    (Nat.lt_of_le_of_lt (Nat.sub_le 0xFFFF octets.length) (by decide))
  have first := number_of_take?
    (Bits.take?_two_octets 0 low high (low' :: high' :: (octets ++ rest)))
  have second := number_of_take? (Bits.take?_two_octets 0 low' high' (octets ++ rest))
  rw [lengthIs] at first
  rw [checkIs] at second
  have complement : octets.length + (0xFFFF - octets.length) = 0xFFFF := Nat.add_sub_of_le fits
  rw [length, check]
  simp only [expandStored, Bits.align, List.cons_append, List.nil_append, first, second,
    halting_ok, Success.ok_bind, complement, bne_self_eq_false, Bool.false_eq_true, if_false,
    Bits.ofOctets]
  exact copyStored_append octets rest output

/-- Stored blocks are no shorter than what they hold. -/
theorem length_le_storedBlocks (octets : List UInt8) :
    octets.length ≤ (storedBlocks octets).length := by
  induction octets using storedBlocks.induct with
  | case1 octets last =>
      rw [storedBlocks, if_pos last]
      simp [List.take_of_length_le last]
      omega
  | case2 octets more ih =>
      rw [storedBlocks, if_neg more]
      simp only [List.length_append, List.length_cons, List.length_take, List.length_drop] at ih ⊢
      omega

/-- A stored block is expanded, and the blocks after it unless it is the last one. -/
theorem expandBlocks_block {octets : List UInt8} (fits : octets.length ≤ storedLimit)
    (last : Bool) (rest : List UInt8) (output : Array UInt8) (fuel : Nat) :
    expandBlocks (fuel + 1) output (.ofOctets ((if last then 1 else 0)
      :: (toLittleEndian 2 octets.length ++ toLittleEndian 2 (0xFFFF - octets.length)
        ++ (octets ++ rest)))) =
      if last then .ok (output ++ octets.toArray, .ofOctets rest)
      else expandBlocks fuel (output ++ octets.toArray) (.ofOctets rest) := by
  have mark (block : List UInt8) : number 1 (.ofOctets ((if last then 1 else 0) :: block)) =
      .ok (if last then 1 else 0, ⟨0, 7, block⟩) := by
    cases last <;> rfl
  have type (block : List UInt8) : number 2 ⟨0, 7, block⟩ = .ok (0, ⟨0, 5, block⟩) :=
    number_of_take? (Bits.take?_within 2 5 block (show 0 < 256 by decide))
  simp only [expandBlocks, mark, type, halting_ok, Success.ok_bind, beq_self_eq_true, if_true,
    expandStored_block fits]
  cases last <;> rfl

/-- Stored blocks are expanded to what they hold. -/
theorem expandBlocks_storedBlocks (octets rest : List UInt8) (output : Array UInt8) {fuel : Nat}
    (enough : octets.length < fuel) :
    expandBlocks fuel output (.ofOctets (storedBlocks octets ++ rest)) =
      .ok (output ++ octets.toArray, .ofOctets rest) := by
  induction octets using storedBlocks.induct generalizing output fuel with
  | case1 octets last =>
      obtain ⟨fuel, rfl⟩ := Nat.exists_eq_succ_of_ne_zero (Nat.ne_zero_of_lt enough)
      have block := expandBlocks_block last true rest output fuel
      rw [storedBlocks, if_pos last, Nat.min_eq_left last, List.take_of_length_le last]
      simpa only [List.cons_append, List.append_assoc, if_true] using block
  | case2 octets more ih =>
      obtain ⟨fuel, rfl⟩ := Nat.exists_eq_succ_of_ne_zero (Nat.ne_zero_of_lt enough)
      have full : (octets.take storedLimit).length = storedLimit :=
        List.length_take_of_le (Nat.le_of_not_le more)
      have block := expandBlocks_block (Nat.le_of_eq full) false
        (storedBlocks (octets.drop storedLimit) ++ rest) output fuel
      have fewer : (octets.drop storedLimit).length < fuel := by
        rw [List.length_drop]
        unfold storedLimit at more ⊢
        omega
      rw [storedBlocks, if_neg more, Nat.min_eq_right (Nat.le_of_not_le more)]
      have parts : output ++ (octets.take storedLimit).toArray
          ++ (octets.drop storedLimit).toArray = output ++ octets.toArray := by
        rw [Array.append_assoc, List.append_toArray _ (octets.drop storedLimit),
          List.take_append_drop]
      rw [full, ih (output ++ (octets.take storedLimit).toArray) fewer, parts] at block
      simpa only [List.cons_append, List.append_assoc, Bool.false_eq_true, if_false] using block

/-! ### Members of stored blocks -/

theorem takeExactly_append (first rest : List UInt8) :
    takeExactly first.length (first ++ rest) = .ok (first, rest) := by
  have enough : ¬ (first ++ rest).length < first.length := by simp
  rw [takeExactly, if_neg enough, List.splitAt_eq]
  simp

theorem takeExactly_toLittleEndian (size n : Nat) (rest : List UInt8) :
    takeExactly size (toLittleEndian size n ++ rest) = .ok (toLittleEndian size n, rest) := by
  have taken := takeExactly_append (toLittleEndian size n) rest
  rwa [length_toLittleEndian] at taken

theorem skipHeader_plainHeader (s : List UInt8) : skipHeader (plainHeader ++ s) = .ok s := by
  rw [skipHeader, show takeExactly 10 _ = _ from takeExactly_append plainHeader s]
  rfl

theorem inflate_storedBlocks (octets rest : List UInt8) :
    inflate (storedBlocks octets ++ rest) = ⟨octets.toArray, .ok rest⟩ := by
  have enough : octets.length < (Bits.ofOctets (storedBlocks octets ++ rest)).size + 1 := by
    have held := length_le_storedBlocks octets
    change octets.length < 0 + 8 * (storedBlocks octets ++ rest).length + 1
    rw [List.length_append]
    omega
  simp only [inflate, expandBlocks_storedBlocks octets rest #[] enough]
  simp [Bits.ofOctets]

theorem checkTrailer_own (octets : List UInt8) :
    checkTrailer octets (toLittleEndian 4 (crc32 octets).toNat ++ toLittleEndian 4 octets.length) =
      .ok (.content octets) := by
  have crc : littleEndian (toLittleEndian 4 (crc32 octets).toNat) = (crc32 octets).toNat :=
    (littleEndian_toLittleEndian 4 _).trans (Nat.mod_eq_of_lt (crc32 octets).toNat_lt)
  have size := littleEndian_toLittleEndian 4 octets.length
  have whole := takeExactly_toLittleEndian 4 octets.length []
  rw [List.append_nil] at whole
  simp only [checkTrailer, takeExactly_toLittleEndian, Success.ok_bind, whole, crc, size]
  simp [capacity]
  rfl

/-- What is written as a member is read back. -/
theorem decompress_storedMember (octets : List UInt8) :
    decompress none (storedMember octets) = .ok (.content octets) := by
  simp only [storedMember, List.append_assoc, decompress, skipHeader_plainHeader, Success.ok_bind,
    inflate_storedBlocks]
  exact checkTrailer_own octets

/-- Octets can be stored as they are. -/
scoped instance stored : Compressor :=
  ⟨storedMember, decompress_storedMember⟩

end Gzip

/-- What any compressor writes is expanded to what it was given. -/
theorem Dump.inflate_compress [Gzip.Compressor] (octets : List UInt8) :
    inflate none (Gzip.Compressor.compress octets) = .ok octets := by
  have read := Gzip.Compressor.decompress_compress octets
  rw [inflate, Gzip.isGzip_of_decompress read, read]
  rfl

end CodeNav
