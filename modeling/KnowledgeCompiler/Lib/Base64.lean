import Mathlib.Data.List.Basic

namespace KnowledgeCompiler.Lib.Base64

-- The URL-safe alphabet.
def digit (n : Nat) : Char :=
  if n < 26 then Char.ofNat (65 + n)
  else if n < 52 then Char.ofNat (71 + n)
  else if n < 62 then Char.ofNat (n - 4)
  else if n = 62 then '-'
  else '_'

-- Reading knows both alphabets.
def value? (c : Char) : Option Nat :=
  if 'A' ≤ c ∧ c ≤ 'Z' then some (c.toNat - 65)
  else if 'a' ≤ c ∧ c ≤ 'z' then some (c.toNat - 71)
  else if c.isDigit then some (c.toNat + 4)
  else if c = '-' ∨ c = '+' then some 62
  else if c = '_' ∨ c = '/' then some 63
  else none

-- `base64.urlsafe_b64encode(raw).rstrip(b"=")`
def encode : List UInt8 → List Char
  | [] => []
  | [a] => [digit (a.toNat / 4), digit (a.toNat % 4 * 16)]
  | [a, b] =>
      [digit (a.toNat / 4), digit (a.toNat % 4 * 16 + b.toNat / 16), digit (b.toNat % 16 * 4)]
  | a :: b :: c :: rest =>
      digit (a.toNat / 4) :: digit (a.toNat % 4 * 16 + b.toNat / 16) ::
        digit (b.toNat % 16 * 4 + c.toNat / 64) :: digit (c.toNat % 64) :: encode rest

-- How far a group of four digits has been read, and the bits left over.
structure Reader where
  position : Nat := 0
  left : Nat := 0
  pads : Nat := 0
  out : List UInt8 := []

def Reader.take (reader : Reader) (value : Nat) : Reader :=
  match reader.position with
  | 0 => { position := 1, left := value, out := reader.out }
  | 1 =>
      { position := 2, left := value % 16
        out := reader.out ++ [UInt8.ofNat (reader.left * 4 + value / 16)] }
  | 2 =>
      { position := 3, left := value % 4
        out := reader.out ++ [UInt8.ofNat (reader.left * 16 + value / 4)] }
  | _ => { out := reader.out ++ [UInt8.ofNat (reader.left * 64 + value)] }

-- `binascii.a2b_base64`: characters outside the alphabet are skipped, and enough
-- padding ends the text.
def decodeFrom : Reader → List Char → Option (List UInt8)
  | reader, [] => if reader.position = 0 then some reader.out else none
  | reader, c :: rest =>
      if c = '=' then
        if reader.position < 2 then decodeFrom reader rest
        else if 4 ≤ reader.position + (reader.pads + 1) then some reader.out
        else decodeFrom { reader with pads := reader.pads + 1 } rest
      else
        match value? c with
        | none => decodeFrom reader rest
        | some value => decodeFrom (reader.take value) rest

-- `base64.urlsafe_b64decode`
def decode (text : List Char) : Option (List UInt8) := decodeFrom {} text

-- `part + "=" * (-len(part) % 4)`
def padded (part : List Char) : List Char :=
  part ++ List.replicate ((4 - part.length % 4) % 4) '='

theorem digit_spec {n : Nat} (hn : n < 64) :
    digit n ≠ '=' ∧ value? (digit n) = some n ∧ (digit n).toNat < 0x80 := by
  have h : ∀ n < 64, digit n ≠ '=' ∧ value? (digit n) = some n ∧ (digit n).toNat < 0x80 := by
    decide
  exact h n hn

theorem decodeFrom_digit {n : Nat} (hn : n < 64) (reader : Reader) (rest : List Char) :
    decodeFrom reader (digit n :: rest) = decodeFrom (reader.take n) rest := by
  obtain ⟨hpad, hvalue, -⟩ := digit_spec hn
  rw [decodeFrom, if_neg hpad, hvalue]

theorem ofNat_eq (a : UInt8) {n : Nat} (hn : n = a.toNat) : UInt8.ofNat n = a := by
  rw [hn, UInt8.ofNat_toNat]

theorem length_encode (bytes : List UInt8) :
    (encode bytes).length % 4 = [0, 2, 3].getD (bytes.length % 3) 0 := by
  induction bytes using encode.induct with
  | case1 => rfl
  | case2 a => rfl
  | case3 a b => rfl
  | case4 a b c rest ih =>
      simp only [encode, List.length_cons]
      have hgroup : (rest.length + 1 + 1 + 1) % 3 = rest.length % 3 := by omega
      rw [hgroup, ← ih]
      omega

theorem decodeFrom_encode (bytes out : List UInt8) :
    decodeFrom { out := out } (padded (encode bytes)) = some (out ++ bytes) := by
  induction bytes using encode.induct generalizing out with
  | case1 => simp [padded, encode, decodeFrom]
  | case2 a =>
      have ha := a.toNat_lt
      have hpadded : padded (encode [a]) =
          digit (a.toNat / 4) :: digit (a.toNat % 4 * 16) :: ['=', '='] := rfl
      have hbyte : UInt8.ofNat (a.toNat / 4 * 4 + a.toNat % 4 * 16 / 16) = a :=
        ofNat_eq a (by omega)
      rw [hpadded, decodeFrom_digit (by omega), decodeFrom_digit (by omega)]
      simp only [Reader.take, hbyte]
      rfl
  | case3 a b =>
      have ha := a.toNat_lt
      have hb := b.toNat_lt
      have hpadded : padded (encode [a, b]) = digit (a.toNat / 4) ::
          digit (a.toNat % 4 * 16 + b.toNat / 16) :: digit (b.toNat % 16 * 4) :: ['='] := rfl
      have hfirst : UInt8.ofNat (a.toNat / 4 * 4 + (a.toNat % 4 * 16 + b.toNat / 16) / 16) = a :=
        ofNat_eq a (by omega)
      have hsecond : UInt8.ofNat
          ((a.toNat % 4 * 16 + b.toNat / 16) % 16 * 16 + b.toNat % 16 * 4 / 4) = b :=
        ofNat_eq b (by omega)
      rw [hpadded, decodeFrom_digit (by omega), decodeFrom_digit (by omega),
        decodeFrom_digit (by omega)]
      simp only [Reader.take, hfirst, hsecond, List.append_assoc]
      rfl
  | case4 a b c rest ih =>
      have ha := a.toNat_lt
      have hb := b.toNat_lt
      have hc := c.toNat_lt
      have hpadded : padded (encode (a :: b :: c :: rest)) = digit (a.toNat / 4) ::
          digit (a.toNat % 4 * 16 + b.toNat / 16) :: digit (b.toNat % 16 * 4 + c.toNat / 64) ::
            digit (c.toNat % 64) :: padded (encode rest) := by
        have hlength : ((encode rest).length + 1 + 1 + 1 + 1) % 4 = (encode rest).length % 4 := by
          omega
        simp only [padded, encode, List.length_cons, hlength, List.cons_append]
      have hfirst : UInt8.ofNat (a.toNat / 4 * 4 + (a.toNat % 4 * 16 + b.toNat / 16) / 16) = a :=
        ofNat_eq a (by omega)
      have hsecond : UInt8.ofNat ((a.toNat % 4 * 16 + b.toNat / 16) % 16 * 16 +
          (b.toNat % 16 * 4 + c.toNat / 64) / 4) = b := ofNat_eq b (by omega)
      have hthird : UInt8.ofNat
          ((b.toNat % 16 * 4 + c.toNat / 64) % 4 * 64 + c.toNat % 64) = c := ofNat_eq c (by omega)
      rw [hpadded, decodeFrom_digit (by omega), decodeFrom_digit (by omega),
        decodeFrom_digit (by omega), decodeFrom_digit (by omega)]
      simp only [Reader.take, hfirst, hsecond, hthird]
      rw [ih]
      simp

-- What is written is read back once the padding is restored.
theorem decode_encode (bytes : List UInt8) : decode (padded (encode bytes)) = some bytes :=
  decodeFrom_encode bytes []

theorem encode_injective : Function.Injective encode := by
  intro first second h
  have hdecode := decode_encode first
  rw [h, decode_encode] at hdecode
  exact (Option.some.inj hdecode).symm

-- Every character is a digit of the alphabet.
theorem mem_encode {bytes : List UInt8} {c : Char} (hc : c ∈ encode bytes) :
    ∃ n < 64, c = digit n := by
  induction bytes using encode.induct with
  | case1 => cases hc
  | case2 a =>
      have ha := a.toNat_lt
      simp only [encode, List.mem_cons, List.not_mem_nil, or_false] at hc
      rcases hc with rfl | rfl
      · exact ⟨_, by omega, rfl⟩
      · exact ⟨_, by omega, rfl⟩
  | case3 a b =>
      have ha := a.toNat_lt
      have hb := b.toNat_lt
      simp only [encode, List.mem_cons, List.not_mem_nil, or_false] at hc
      rcases hc with rfl | rfl | rfl
      · exact ⟨_, by omega, rfl⟩
      · exact ⟨_, by omega, rfl⟩
      · exact ⟨_, by omega, rfl⟩
  | case4 a b c rest ih =>
      have ha := a.toNat_lt
      have hb := b.toNat_lt
      have hc' := c.toNat_lt
      simp only [encode, List.mem_cons] at hc
      rcases hc with rfl | rfl | rfl | rfl | hc
      · exact ⟨_, by omega, rfl⟩
      · exact ⟨_, by omega, rfl⟩
      · exact ⟨_, by omega, rfl⟩
      · exact ⟨_, Nat.mod_lt _ (by decide), rfl⟩
      · exact ih hc

theorem encode_ascii {bytes : List UInt8} {c : Char} (hc : c ∈ encode bytes) : c.toNat < 0x80 := by
  obtain ⟨n, hn, rfl⟩ := mem_encode hc
  exact (digit_spec hn).2.2

theorem encode_ne_nil {bytes : List UInt8} (hbytes : bytes ≠ []) : encode bytes ≠ [] := by
  intro h
  exact hbytes (encode_injective (h.trans encode.eq_1.symm))

-- `base64.b64encode(raw)`, in the standard alphabet.
def standard (c : Char) : Char := if c = '-' then '+' else if c = '_' then '/' else c

def encodeStandard (bytes : List UInt8) : List Char := (padded (encode bytes)).map standard

def isStandard (c : Char) : Bool := (value? c).isSome && c ≠ '-' && c ≠ '_'

-- `base64.b64decode(text, validate=True)`: digits, then no more padding than they call for.
def decodeStrict (text : List Char) : Option (List UInt8) :=
  let digits := text.takeWhile isStandard
  let pads := text.dropWhile isStandard
  if pads.all (· = '=') && (digits ≠ [] || pads = []) &&
      match digits.length % 4 with
      | 0 => true
      | 1 => false
      | 2 => pads.length = 2
      | _ => pads.length = 1
  then decode text else none

theorem value?_standard (c : Char) : value? (standard c) = value? c := by
  unfold standard
  split
  · rename_i hc
    subst hc
    rfl
  · split
    · rename_i hc
      subst hc
      rfl
    · rfl

theorem standard_eq_pad_iff (c : Char) : standard c = '=' ↔ c = '=' := by
  unfold standard
  split
  · rename_i hc
    subst hc
    decide
  · split
    · rename_i hc
      subst hc
      decide
    · rfl

theorem decodeFrom_map_standard (text : List Char) (reader : Reader) :
    decodeFrom reader (text.map standard) = decodeFrom reader text := by
  induction text generalizing reader with
  | nil => rfl
  | cons c rest ih => simp only [List.map_cons, decodeFrom, standard_eq_pad_iff, value?_standard, ih]

theorem isStandard_digit {n : Nat} (hn : n < 64) : isStandard (standard (digit n)) = true := by
  have h : ∀ n < 64, isStandard (standard (digit n)) = true := by decide
  exact h n hn

theorem encodeStandard_eq (bytes : List UInt8) : encodeStandard bytes =
    (encode bytes).map standard ++ List.replicate ((4 - (encode bytes).length % 4) % 4) '=' := by
  rw [encodeStandard, padded, List.map_append, List.map_replicate]
  rfl

theorem isStandard_encode {bytes : List UInt8} {c : Char} (hc : c ∈ (encode bytes).map standard) :
    isStandard c = true := by
  obtain ⟨d, hd, rfl⟩ := List.mem_map.mp hc
  obtain ⟨n, hn, rfl⟩ := mem_encode hd
  exact isStandard_digit hn

-- What is written in the standard alphabet passes the strict reader.
theorem decodeStrict_encodeStandard (bytes : List UInt8) :
    decodeStrict (encodeStandard bytes) = some bytes := by
  have hdecode : decode (encodeStandard bytes) = some bytes :=
    (decodeFrom_map_standard _ _).trans (decode_encode bytes)
  have hpads : ∀ count, (List.replicate count '=').dropWhile isStandard = List.replicate count '=' ∧
      (List.replicate count '=').takeWhile isStandard = [] := by
    intro count
    cases count with
    | zero => exact ⟨rfl, rfl⟩
    | succ count =>
        have hpad : isStandard '=' = false := by decide
        simp [List.replicate_succ, hpad]
  have htake : (encodeStandard bytes).takeWhile isStandard = (encode bytes).map standard := by
    rw [encodeStandard_eq, List.takeWhile_append_of_pos (fun c => isStandard_encode), (hpads _).2,
      List.append_nil]
  have hdrop : (encodeStandard bytes).dropWhile isStandard =
      List.replicate ((4 - (encode bytes).length % 4) % 4) '=' := by
    rw [encodeStandard_eq, List.dropWhile_append_of_pos (fun c => isStandard_encode), (hpads _).1]
  have hlength := length_encode bytes
  have hmod : bytes.length % 3 < 3 := Nat.mod_lt _ (by decide)
  unfold decodeStrict
  simp only [htake, hdrop, hdecode, List.length_map, List.length_replicate]
  refine if_pos ?_
  have hlong : bytes.length % 3 ≠ 0 → (encode bytes).map standard ≠ [] := by
    intro hne
    rw [ne_eq, List.map_eq_nil_iff]
    refine encode_ne_nil ?_
    rintro rfl
    exact hne rfl
  have hcases : bytes.length % 3 = 0 ∨ bytes.length % 3 = 1 ∨ bytes.length % 3 = 2 := by omega
  rcases hcases with hcase | hcase | hcase
  · rw [hcase] at hlength
    simp [hlength]
  · rw [hcase] at hlength
    simp [hlength, hlong (by omega)]
  · rw [hcase] at hlength
    simp [hlength, hlong (by omega)]

theorem encodeStandard_plain {bytes : List UInt8} {c : Char} (hc : c ∈ encodeStandard bytes) :
    0x20 < c.toNat ∧ c.toNat < 0x80 := by
  have hdigit : ∀ n < 64, 0x20 < (standard (digit n)).toNat ∧ (standard (digit n)).toNat < 0x80 := by
    decide
  rw [encodeStandard_eq, List.mem_append] at hc
  rcases hc with hdigits | hpads
  · obtain ⟨d, hd, rfl⟩ := List.mem_map.mp hdigits
    obtain ⟨n, hn, rfl⟩ := mem_encode hd
    exact hdigit n hn
  · rw [List.eq_of_mem_replicate hpads]
    decide

end KnowledgeCompiler.Lib.Base64
