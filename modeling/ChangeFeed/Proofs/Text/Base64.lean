import ChangeFeed.Text.Base64
import Mathlib.Data.Nat.Bitwise
import ChangeFeed.Proofs.Text.Trimming
/-!
# Base64 — the same bits, six at a time

What base64 is can be said without how it is written. The digits of a text have
the bits of its bytes, in order, and where the bytes end inside a digit the rest of
that digit is zero (`Encodes`). `encode` writes such a text, because a number has
the same bits whether it is cut into bytes or into digits (`allBits_parts`), and
`decode?` reads these texts and no other.
-/


namespace ChangeFeed.Base64

/-! ## Bits of numbers -/

/-- The lowest bits of a number, so many, the highest first. -/
def bits : Nat → Nat → List Bool
  | 0, _ => []
  | width + 1, n => n.testBit width :: bits width n

/-- The number that has these bits. -/
def ofBits : List Bool → Nat
  | [] => 0
  | bit :: rest => 2 ^ rest.length * bit.toNat + ofBits rest

/-- The bits of some numbers, one behind the other. -/
def allBits (width : Nat) (numbers : List Nat) : List Bool := numbers.flatMap (bits width)

/-- The parts of a number that have so many bits each, the highest first. -/
def parts (width : Nat) : Nat → Nat → List Nat
  | 0, _ => []
  | count + 1, n => n / 2 ^ (width * count) % 2 ^ width :: parts width count n

@[simp] theorem length_bits (width n : Nat) : (bits width n).length = width := by
  induction width with
  | zero => rfl
  | succ width ih => rw [bits, List.length_cons, ih]

@[simp] theorem allBits_nil (width : Nat) : allBits width [] = [] := rfl

@[simp] theorem allBits_cons (width n : Nat) (rest : List Nat) :
    allBits width (n :: rest) = bits width n ++ allBits width rest := List.flatMap_cons

@[simp] theorem allBits_append (width : Nat) (front back : List Nat) :
    allBits width (front ++ back) = allBits width front ++ allBits width back :=
  List.flatMap_append

@[simp] theorem length_allBits (width : Nat) (numbers : List Nat) :
    (allBits width numbers).length = width * numbers.length := by
  induction numbers with
  | nil => rfl
  | cons n rest ih => simp [ih, Nat.mul_succ, Nat.add_comm]

/-- The lowest bits are those of the remainder. -/
theorem bits_mod (width n : Nat) : bits width (n % 2 ^ width) = bits width n := by
  have hlow : ∀ i, i ≤ width → bits i (n % 2 ^ width) = bits i n := by
    intro i hi
    induction i with
    | zero => rfl
    | succ i ih =>
      rw [bits, bits, ih (by omega), Nat.testBit_mod_two_pow, decide_eq_true (by omega),
        Bool.true_and]
  exact hlow width (Nat.le_refl width)

/-- The bits above are those of the quotient. -/
theorem bits_add (more width n : Nat) :
    bits (more + width) n = bits more (n / 2 ^ width) ++ bits width n := by
  induction more with
  | zero => rw [Nat.zero_add, bits, List.nil_append]
  | succ more ih => rw [Nat.succ_add, bits, bits, ih, Nat.testBit_div_two_pow, List.cons_append]

theorem bits_zero (width : Nat) : bits width 0 = List.replicate width false := by
  induction width with
  | zero => rfl
  | succ width ih => rw [bits, ih, Nat.zero_testBit, List.replicate_succ]

/-- **A number has the bits of its parts.** -/
theorem allBits_parts (width count n : Nat) :
    allBits width (parts width count n) = bits (width * count) n := by
  induction count with
  | zero => rfl
  | succ count ih =>
    rw [parts, allBits_cons, bits_mod, ih, Nat.mul_succ, Nat.add_comm, bits_add]

theorem lt_of_mem_parts {width count n part : Nat} (h : part ∈ parts width count n) :
    part < 2 ^ width := by
  induction count with
  | zero => cases h
  | succ count ih =>
    rcases List.mem_cons.1 h with rfl | hrest
    · exact Nat.mod_lt _ (Nat.two_pow_pos width)
    · exact ih hrest

@[simp] theorem length_parts (width count n : Nat) : (parts width count n).length = count := by
  induction count with
  | zero => rfl
  | succ count ih => rw [parts, List.length_cons, ih]

theorem ofBits_lt (l : List Bool) : ofBits l < 2 ^ l.length := by
  induction l with
  | nil => decide
  | cons bit rest ih =>
    have hmul := Nat.mul_le_mul_left (2 ^ rest.length) (Bool.toNat_le bit)
    rw [ofBits, List.length_cons, Nat.pow_succ]
    omega

/-- Bits are those of the number that has them. -/
theorem bits_ofBits (l : List Bool) : bits l.length (ofBits l) = l := by
  induction l with
  | nil => rfl
  | cons bit rest ih =>
    have hlt := ofBits_lt rest
    rw [ofBits, List.length_cons, bits, Nat.testBit_two_pow_mul_add _ hlt, if_neg (by omega),
      ← bits_mod, Nat.mul_add_mod, Nat.mod_eq_of_lt hlt, ih]
    cases bit <;> simp

/-- A number is the one that has its bits. -/
theorem ofBits_bits (width n : Nat) : ofBits (bits width n) = n % 2 ^ width := by
  induction width with
  | zero => rw [Nat.pow_zero, Nat.mod_one, bits, ofBits]
  | succ width ih =>
    rw [bits, ofBits, length_bits, ih, Nat.toNat_testBit, Nat.mod_pow_succ, Nat.add_comm]

/-! ## What base64 is -/

/-- **A text is the padded base64 of some bytes.** Its digits have the bits of the
bytes, with zeros behind them where the last digit is not full, and pads make up
whole groups of four. -/
inductive Encodes (bytes : Bytes) : Text → Prop where
  | intro {values : List Nat} {padding : Nat} (hvalues : ∀ value ∈ values, value < 64)
      (hpadding : padding < 3) (hgroups : (values.length + padding) % 4 = 0)
      (hbits : allBits 6 values =
        allBits 8 (bytes.map UInt8.toNat) ++ List.replicate (2 * padding) false) :
      Encodes bytes (values.map digit ++ List.replicate padding '=')

/-- **Bytes and digits of one number** have the same bits, up to the zeros that a last
digit is filled with. -/
theorem allBits_digits (digits bytes zeros : Nat) (hwidth : 6 * digits = 8 * bytes + zeros)
    {n : Nat} (hzeros : n % 2 ^ zeros = 0) :
    allBits 6 (parts 6 digits n) =
      allBits 8 (parts 8 bytes (n / 2 ^ zeros)) ++ List.replicate zeros false := by
  rw [allBits_parts, allBits_parts, hwidth, bits_add, ← bits_mod zeros n, hzeros, bits_zero]

/-- A whole group in front of what encodes the rest. -/
theorem Encodes.behind {group rest : Bytes} {t : Text} {n : Nat} (h : Encodes rest t)
    (hgroup : parts 8 3 n = group.map UInt8.toNat) :
    Encodes (group ++ rest) ((parts 6 4 n).map digit ++ t) := by
  obtain @⟨values, padding, hvalues, hpadding, hgroups, hrest⟩ := h
  have hbits := allBits_digits 4 3 0 rfl (Nat.mod_one n)
  rw [Nat.pow_zero, Nat.div_one, hgroup, List.replicate_zero, List.append_nil] at hbits
  rw [← List.append_assoc, ← List.map_append]
  refine .intro ?_ hpadding ?_ ?_
  · exact List.forall_mem_append.2 ⟨fun value => lt_of_mem_parts, hvalues⟩
  · rw [List.length_append, length_parts]
    omega
  · rw [allBits_append, hbits, hrest, List.map_append, allBits_append, List.append_assoc]

/-- A last group, with the pads that make it up to four. -/
theorem encodes_last {group : Bytes} {padding n : Nat} (hpadding : padding < 3)
    (hzeros : n % 2 ^ (2 * padding) = 0)
    (hgroup : parts 8 (3 - padding) (n / 2 ^ (2 * padding)) = group.map UInt8.toNat) :
    Encodes group ((parts 6 (4 - padding) n).map digit ++ List.replicate padding '=') := by
  refine .intro (fun value => lt_of_mem_parts) hpadding ?_ ?_
  · rw [length_parts]
    omega
  · rw [allBits_digits (4 - padding) (3 - padding) (2 * padding) (by omega) hzeros, hgroup]

/-- **What is written is padded base64**: three bytes are four digits, and two or one at the
end are three or two. -/
theorem encodes_encode (bytes : Bytes) : Encodes bytes (encode bytes) := by
  fun_induction encode bytes with
  | case1 a b c rest n ih =>
    -- the group is one number, with the bytes for its parts and with the digits
    have hbounds := And.intro a.toNat_lt (And.intro b.toNat_lt c.toNat_lt)
    have hfirst : n / 65536 % 256 = a.toNat := by omega
    have hsecond : n / 256 % 256 = b.toNat := by omega
    have hthird : n / 1 % 256 = c.toNat := by omega
    have hgroup : parts 8 3 n = [a, b, c].map UInt8.toNat := by
      show [n / 65536 % 256, n / 256 % 256, n / 1 % 256] = [a.toNat, b.toNat, c.toNat]
      rw [hfirst, hsecond, hthird]
    have hdigits : parts 6 4 n = [n / 262144, n / 4096 % 64, n / 64 % 64, n % 64] := by
      have htop : n / 262144 % 64 = n / 262144 := by omega
      show [n / 262144 % 64, n / 4096 % 64, n / 64 % 64, n / 1 % 64] = _
      rw [htop, Nat.div_one]
    have h := ih.behind hgroup
    rwa [hdigits] at h
  | case2 a b n =>
    have hbounds := And.intro a.toNat_lt b.toNat_lt
    have hfirst : n / 4 / 256 % 256 = a.toNat := by omega
    have hsecond : n / 4 / 1 % 256 = b.toNat := by omega
    have hgroup : parts 8 2 (n / 4) = [a, b].map UInt8.toNat := by
      show [n / 4 / 256 % 256, n / 4 / 1 % 256] = [a.toNat, b.toNat]
      rw [hfirst, hsecond]
    have hdigits : parts 6 3 n = [n / 4096, n / 64 % 64, n % 64] := by
      have htop : n / 4096 % 64 = n / 4096 := by omega
      show [n / 4096 % 64, n / 64 % 64, n / 1 % 64] = _
      rw [htop, Nat.div_one]
    have h := @encodes_last _ 1 n (by decide) (by omega) hgroup
    rwa [hdigits] at h
  | case3 a n =>
    have hbound := a.toNat_lt
    have hfirst : n / 16 / 1 % 256 = a.toNat := by omega
    have hgroup : parts 8 1 (n / 16) = [a].map UInt8.toNat := by
      show [n / 16 / 1 % 256] = [a.toNat]
      rw [hfirst]
    have hdigits : parts 6 2 n = [n / 64, n % 64] := by
      have htop : n / 64 % 64 = n / 64 := by omega
      show [n / 64 % 64, n / 1 % 64] = _
      rw [htop, Nat.div_one]
    have h := @encodes_last _ 2 n (by decide) (by omega) hgroup
    rwa [hdigits] at h
  | case4 => exact @Encodes.intro [] [] 0 nofun (by decide) rfl rfl

/-! ## Digits and bytes -/

/-- The value of a digit. -/
def value? (c : Char) : Option Nat := alphabet.idxOf? c

theorem value?_eq_some_iff {c : Char} {value : Nat} :
    value? c = some value ↔ value < 64 ∧ digit value = c := by
  have hlength : alphabet.length = 64 := by decide +kernel
  have hnodup : alphabet.Nodup := by decide +kernel
  rw [value?, List.idxOf?_eq_some_iff]
  constructor
  · rintro ⟨hvalue, hc, -⟩
    refine ⟨hlength ▸ hvalue, ?_⟩
    rw [digit, List.getD_eq_getElem _ _ hvalue, hc]
  · rintro ⟨hvalue, rfl⟩
    rw [← hlength] at hvalue
    refine ⟨hvalue, (List.getD_eq_getElem _ _ hvalue).symm, fun i hi heq => ?_⟩
    rw [digit, List.getD_eq_getElem _ _ hvalue, List.getElem_inj hnodup] at heq
    omega

/-- The values of some digits. -/
theorem mapM_value?_eq_some_iff {digits : Text} {values : List Nat} :
    digits.mapM value? = some values ↔
      (∀ value ∈ values, value < 64) ∧ values.map digit = digits := by
  induction digits generalizing values with
  | nil => cases values <;> simp
  | cons c rest ih =>
    rw [List.mapM_cons]
    simp only [Option.bind_eq_bind, Option.bind_eq_some_iff, value?_eq_some_iff, ih]
    constructor
    · rintro ⟨value, ⟨hvalue, hc⟩, others, ⟨hothers, hrest⟩, heq⟩
      cases heq
      rw [List.map_cons, hc, hrest]
      exact ⟨List.forall_mem_cons.2 ⟨hvalue, hothers⟩, rfl⟩
    · rintro ⟨hvalues, hdigits⟩
      cases values with
      | nil => cases hdigits
      | cons value others =>
        obtain ⟨hc, hrest⟩ := List.cons.inj hdigits
        obtain ⟨hvalue, hothers⟩ := List.forall_mem_cons.1 hvalues
        exact ⟨value, ⟨hvalue, hc⟩, others, ⟨hothers, hrest⟩, rfl⟩

/-- No digit is a pad. -/
theorem digit_ne_pad {value : Nat} (h : value < 64) : digit value ≠ '=' := by
  have hnone : value? '=' = none := by decide +kernel
  intro hpad
  rw [value?_eq_some_iff.2 ⟨h, hpad⟩] at hnone
  cases hnone

/-- The bytes that bits are, eight at a time. What is left behind the last byte is zero. -/
def octets? (l : List Bool) : Option Bytes :=
  if 8 ≤ l.length then
    (octets? (l.drop 8)).map (UInt8.ofNat (ofBits (l.take 8)) :: ·)
  else if l.all (!·) then some [] else none
termination_by l.length
decreasing_by
  rw [List.length_drop]
  omega

/-- **Bits are read as bytes** exactly if they are the bits of these, with fewer zeros
behind them than a byte has. -/
theorem octets?_eq_some_iff {l : List Bool} {bytes : Bytes} :
    octets? l = some bytes ↔ ∃ zeros < 8,
      l = allBits 8 (bytes.map UInt8.toNat) ++ List.replicate zeros false := by
  constructor
  · intro h
    fun_induction octets? l generalizing bytes with
    | case1 l hlong ih =>
      obtain ⟨others, hothers, rfl⟩ := Option.map_eq_some_iff.1 h
      obtain ⟨zeros, hzeros, hrest⟩ := ih hothers
      refine ⟨zeros, hzeros, ?_⟩
      have hlength : (l.take 8).length = 8 := by rw [List.length_take]; omega
      have hlt := ofBits_lt (l.take 8)
      have hback := bits_ofBits (l.take 8)
      rw [hlength] at hlt hback
      rw [List.map_cons, allBits_cons, UInt8.toNat_ofNat', Nat.mod_eq_of_lt hlt, hback,
        List.append_assoc, ← hrest, List.take_append_drop]
    | case2 left hshort hzero =>
      cases h
      refine ⟨left.length, by omega, ?_⟩
      simpa [List.eq_replicate_iff] using hzero
    | case3 => cases h
  · rintro ⟨zeros, hzeros, rfl⟩
    induction bytes with
    | nil =>
      rw [octets?, if_neg (by simpa using hzeros), if_pos (by simp)]
    | cons b rest ih =>
      rw [List.map_cons, allBits_cons, List.append_assoc, octets?, if_pos (by simp),
        List.take_left' (length_bits 8 _), List.drop_left' (length_bits 8 _), ih,
        ofBits_bits, Nat.mod_eq_of_lt b.toNat_lt, UInt8.ofNat_toNat]
      rfl

/-- **Reads padded base64**: digits, and behind them as many pads as the last group of four
needs. -/
def decode? (t : Text) : Option Bytes :=
  let digits := Text.trimEndWhile (· == '=') t
  if t.length % 4 = 0 ∧ t.length - digits.length < 3 then
    (digits.mapM value?).bind fun values => octets? (allBits 6 values)
  else none

/-- **What is read is what encodes the bytes**, and nothing else. -/
theorem decode?_eq_some_iff {t : Text} {bytes : Bytes} :
    decode? t = some bytes ↔ Encodes bytes t := by
  constructor
  · intro h
    obtain ⟨⟨pads, hpads, ht⟩, -⟩ := Text.trimEndWhile_char_eq_iff.1
      (Eq.refl (Text.trimEndWhile (· == '=') t))
    rw [decode?] at h
    generalize Text.trimEndWhile (· == '=') t = digits at h ht
    rw [ht, List.length_append, Nat.add_sub_cancel_left] at h
    split at h
    case isTrue hform =>
      obtain ⟨hgroups, hpadding⟩ := hform
      obtain ⟨values, hdigits, hoctets⟩ := Option.bind_eq_some_iff.1 h
      obtain ⟨hvalues, rfl⟩ := mapM_value?_eq_some_iff.1 hdigits
      obtain ⟨zeros, hzeros, hbits⟩ := octets?_eq_some_iff.1 hoctets
      have hlength := congrArg List.length hbits
      simp only [List.length_append, List.length_map, List.length_replicate, length_allBits]
        at hgroups hlength
      -- whole groups leave as many bits as the pads say
      obtain rfl : zeros = 2 * pads.length := by omega
      rw [ht, List.eq_replicate_iff.2 ⟨rfl, hpads⟩]
      exact .intro hvalues hpadding hgroups hbits
    case isFalse => cases h
  · rintro @⟨values, padding, hvalues, hpadding, hgroups, hbits⟩
    have hlast : (values.map digit).getLast? ≠ some '=' := by
      intro hlast
      obtain ⟨value, hvalue, hpad⟩ := List.mem_map.1 (List.mem_of_getLast? hlast)
      exact digit_ne_pad (hvalues value hvalue) hpad
    rw [decode?, Text.trimEndWhile_char_eq_iff.2
      ⟨⟨_, fun _ => List.eq_of_mem_replicate, rfl⟩, hlast⟩]
    simp only [List.length_append, List.length_map, List.length_replicate,
      Nat.add_sub_cancel_left]
    rw [if_pos ⟨hgroups, hpadding⟩, mapM_value?_eq_some_iff.2 ⟨hvalues, rfl⟩, Option.bind_some]
    exact octets?_eq_some_iff.2 ⟨2 * padding, by omega, hbits⟩

end ChangeFeed.Base64
