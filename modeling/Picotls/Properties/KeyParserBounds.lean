import Picotls.MbedTls.KeyParsing

/-!
# The bounds of the parsers of private keys

The parsers read octets without looking whether there are any left: the four octets in front of an
object identifier or a key, the length behind them, and the length behind an octet `0xa0`. If the
content of the outer sequence ends there, an octet outside of the string is read. Otherwise all
reads and all ranges are in bounds, for strings of up to 2^56 octets. In longer ones a length can be
so great that its sum with the position is not a number of 64 bits any more.
-/

namespace Picotls.MbedTls

open Foundation

variable {bytes : Bytes} {i keyIndex keyLength n p : ℕ}

/-! ## Reading octets -/

theorem octetAt_eq_none : octetAt bytes p = none ↔ bytes.length ≤ p :=
  List.getElem?_eq_none_iff

theorem octetAt_of_lt (h : p < bytes.length) : ∃ octet, octetAt bytes p = some octet :=
  ⟨bytes[p], List.getElem?_eq_getElem h⟩

theorem octetAt_eq_head (p : ℕ) : octetAt bytes p = (bytes.drop p).head? := by
  rw [List.head?_drop]
  rfl

/-- Octets are read outside of the string exactly if it ends before the first that differs. -/
theorem expectOctets_cases (bytes : Bytes) (p : ℕ) (expected : Bytes) :
    (bytes.drop p <+: expected ∧ bytes.drop p ≠ expected ∧
      expectOctets bytes p expected = none) ∨
    (expected <+: bytes.drop p ∧ expectOctets bytes p expected = some true) ∨
    (¬ bytes.drop p <+: expected ∧ ¬ expected <+: bytes.drop p ∧
      expectOctets bytes p expected = some false) := by
  induction expected generalizing p with
  | nil => exact .inr (.inl ⟨List.nil_prefix, rfl⟩)
  | cons octet expected ih =>
    unfold expectOctets
    rw [octetAt_eq_head]
    cases hdrop : bytes.drop p with
    | nil => exact .inl ⟨List.nil_prefix, List.cons_ne_nil _ _ ∘ Eq.symm, rfl⟩
    | cons first rest =>
      have hrest : bytes.drop (p + 1) = rest := by
        rw [← List.drop_drop, hdrop]
        rfl
      have ih := ih (p + 1)
      rw [hrest] at ih
      by_cases hoctet : first = octet
      · subst hoctet
        simpa using ih
      · refine .inr (.inr ⟨?_, ?_, ?_⟩)
        · rw [List.cons_prefix_cons]
          exact fun h => hoctet h.1
        · rw [List.cons_prefix_cons]
          exact fun h => hoctet h.1.symm
        · simp [hoctet]

/-! ## Lengths -/

/-- The loop over the octets of a length ends in the string if there are enough octets, or if the
string is not so long that a sum can have more than 64 bits. -/
theorem derLengthLoop_some (ll : ℕ) {base pemLen x l : ℕ} (hbase : base + pemLen ≤ bytes.length)
    (hx : 0 < x) (hxLen : x ≤ pemLen) (hl : l < sizeRange)
    (h : x + ll ≤ pemLen ∨ pemLen ≤ 2 ^ 56 ∧ x + l < sizeRange) :
    ∃ y l', derLengthLoop bytes base pemLen ll x l = some (y, l') ∧ x ≤ y ∧ y ≤ x + ll ∧
      y ≤ pemLen ∧ l' < sizeRange ∧ (pemLen ≤ 2 ^ 56 → x + l < sizeRange → y + l' < sizeRange) := by
  have hrange : sizeRange = 2 ^ 64 := rfl
  induction ll generalizing x l with
  | zero => exact ⟨x, l, rfl, le_refl _, le_refl _, hxLen, hl, fun _ hsum => hsum⟩
  | succ ll ih =>
    unfold derLengthLoop
    split_ifs with hless
    · have hlt : x < pemLen := by
        rcases h with h | ⟨-, hsum⟩
        · omega
        · rw [Nat.mod_eq_of_lt hsum] at hless
          omega
      obtain ⟨octet, hoctet⟩ := octetAt_of_lt (show base + x < bytes.length by omega)
      have hoctetLt := octet.toNat_lt
      have hsum (hlen : pemLen ≤ 2 ^ 56) (hsum : x + l < sizeRange) :
          x + 1 + (l * 256 + octet.toNat) % sizeRange < sizeRange := by
        rw [Nat.mod_eq_of_lt hsum] at hless
        rw [Nat.mod_eq_of_lt (by omega)]
        omega
      obtain ⟨y, l', hrun, hlow, hhigh, hle, hl', hsum'⟩ := ih (Nat.succ_pos x) hlt
        (Nat.mod_lt (l * 256 + octet.toNat) (by decide))
        (h.imp (fun h => by omega) fun h => ⟨h.1, hsum h.1 h.2⟩)
      rw [hoctet]
      exact ⟨y, l', hrun, by omega, by omega, hle, hl', fun hlen h => hsum' hlen (hsum hlen h)⟩
    · exact ⟨x, l, rfl, le_refl _, by omega, hxLen, hl, fun _ hsum => hsum⟩

/-- A length is parsed within the string if there are enough octets, or if the string is not so long
that a sum can have more than 64 bits. -/
theorem parseDerLength_some {base pemLen x : ℕ} (hbase : base + pemLen ≤ bytes.length)
    (hx : x < pemLen) (h : x + 128 ≤ pemLen ∨ pemLen ≤ 2 ^ 56) :
    ∃ y l, ptlsMbedtlsParseDerLength bytes base pemLen x = some (y, l) ∧ x < y ∧ y ≤ x + 128 ∧
      y ≤ pemLen ∧ l < sizeRange ∧ (pemLen ≤ 2 ^ 56 → y + l < sizeRange) := by
  obtain ⟨octet, hoctet⟩ := octetAt_of_lt (show base + x < bytes.length by omega)
  have hoctetLt := octet.toNat_lt
  have hrange : sizeRange = 2 ^ 64 := rfl
  unfold ptlsMbedtlsParseDerLength
  rw [hoctet]
  change ∃ y l, (if 128 < octet then _ else _) = some (y, l) ∧ _
  split_ifs with hlong
  · obtain ⟨y, l, hrun, hlow, hhigh, hle, hl, hsum⟩ := derLengthLoop_some (octet.toNat % 128)
      hbase (Nat.succ_pos x) hx (show 0 < sizeRange by decide)
      (h.imp (fun h => by omega) fun h => ⟨h, by omega⟩)
    exact ⟨y, l, hrun, by omega, by omega, hle, hl, fun hlen => hsum hlen (by omega)⟩
  · exact ⟨x + 1, octet.toNat, rfl, Nat.lt_succ_self x, by omega, hx, by omega,
      fun hlen => by omega⟩

/-! ## The outer sequence -/

section Sequence

variable {base pemLen x : ℕ}

/-- The string, or the part of it that is given, is a sequence, and its content begins at a
position. -/
structure OpensAt (bytes : Bytes) (base pemLen x : ℕ) : Prop where
  long : 16 ≤ pemLen
  type : octetAt bytes base = some 0x30
  length : ∃ l, ptlsMbedtlsParseDerLength bytes base pemLen 1 = some (x, l) ∧
    (x + l) % sizeRange = pemLen

theorem OpensAt.bounds (h : OpensAt bytes base pemLen x) (hbase : base + pemLen ≤ bytes.length) :
    x ≤ pemLen ∧ x ≤ 129 := by
  have hlong := h.long
  obtain ⟨l, hrun, -⟩ := h.length
  obtain ⟨y, l', hrun', -, hhigh, hle, -, -⟩ := parseDerLength_some hbase
    (show 1 < pemLen by omega) (by omega)
  rw [hrun] at hrun'
  cases hrun'
  exact ⟨hle, hhigh⟩

theorem OpensAt.openSequence (h : OpensAt bytes base pemLen x) :
    openSequence bytes base pemLen = some (some x) := by
  obtain ⟨l, hrun, hsum⟩ := h.length
  unfold MbedTls.openSequence
  rw [if_neg (not_lt.mpr h.long), h.type, hrun]
  simp [hsum]

/-- The sequence is opened without reading outside of the string. -/
theorem openSequence_some (hbase : base + pemLen ≤ bytes.length) :
    openSequence bytes base pemLen = some none ∨ ∃ x, OpensAt bytes base pemLen x := by
  unfold openSequence
  split_ifs with hshort
  · exact .inl rfl
  · obtain ⟨type, htype⟩ := octetAt_of_lt (show base < bytes.length by omega)
    obtain ⟨y, l, hrun, -⟩ := parseDerLength_some hbase (show 1 < pemLen by omega) (by omega)
    by_cases hopens : type = 0x30 ∧ (y + l) % sizeRange = pemLen
    · exact .inr ⟨y, not_lt.mp hshort, hopens.1 ▸ htype, l, hrun, hopens.2⟩
    · refine .inl ?_
      rw [htype, hrun]
      change (if type ≠ 0x30 then _ else if (y + l) % sizeRange ≠ pemLen then _ else _) = _
      split_ifs with htype hsum
      · rfl
      · rfl
      · exact absurd ⟨not_not.mp htype, not_not.mp hsum⟩ hopens

end Sequence

/-! ## ECDSA keys -/

section Ecdsa

variable {base pemLen x : ℕ} (hbase : base + pemLen ≤ bytes.length)

include hbase

/-- The public key is skipped without reading outside of the string. -/
theorem skipPublicKey_some (hsmall : x ≤ 2 ^ 32) :
    ∃ r, skipPublicKey bytes base pemLen x = some r := by
  unfold skipPublicKey
  split_ifs with hless
  · obtain ⟨type, htype⟩ := octetAt_of_lt (show base + x < bytes.length by omega)
    rw [htype]
    change ∃ r, (if type ≠ 0xa1 ∨ pemLen ≤ x + 1 then _ else _) = some r
    split_ifs with hother
    · exact ⟨_, rfl⟩
    · obtain ⟨y, l, hrun, -⟩ := parseDerLength_some hbase (show x + 1 < pemLen by omega) (by omega)
      rw [hrun]
      exact ⟨_, rfl⟩
  · exact ⟨_, rfl⟩

/-- The last octet of the string announces parameters. -/
def EndsInParameters (bytes : Bytes) (base pemLen x : ℕ) : Prop :=
  base + pemLen = bytes.length ∧ x + 1 = pemLen ∧ octetAt bytes (base + x) = some 0xa0

/-- The parameters are read outside of the string only if their type is the last octet. -/
theorem skipParameters_cases (x : ℕ) :
    (EndsInParameters bytes base pemLen x ∧ skipParameters bytes base pemLen x = none) ∨
    (¬ EndsInParameters bytes base pemLen x ∧ ∃ r, skipParameters bytes base pemLen x = some r ∧
      ∀ y, r = some y → y ≤ x + 257) := by
  unfold skipParameters
  split_ifs with hless
  · obtain ⟨type, htype⟩ := octetAt_of_lt (show base + x < bytes.length by omega)
    rw [htype]
    by_cases hparameters : type = 0xa0
    · by_cases hlast : base + (x + 1) < bytes.length
      · obtain ⟨l, hl⟩ := octetAt_of_lt hlast
        have hlLt := l.toNat_lt
        refine .inr ⟨fun h => ?_, ?_⟩
        · have hend := h.1
          have hnext := h.2.1
          omega
        · rw [hl]
          change ∃ r, (if type = 0xa0 then (if pemLen ≤ (x + 1 + l.toNat) % sizeRange then _ else _)
            else _) = some r ∧ _
          rw [if_pos hparameters]
          split_ifs
          · exact ⟨_, rfl, nofun⟩
          · exact ⟨_, rfl, fun y hy => by cases hy; omega⟩
      · refine .inl ⟨⟨by omega, by omega, hparameters ▸ htype⟩, ?_⟩
        rw [octetAt_eq_none.mpr (not_lt.mp hlast)]
        change (if type = 0xa0 then none else _) = _
        rw [if_pos hparameters]
    · refine .inr ⟨fun h => hparameters ?_, ?_⟩
      · exact Option.some.inj (htype.symm.trans h.2.2)
      · change ∃ r, (if type = 0xa0 then _ else some (some x)) = some r ∧ _
        rw [if_neg hparameters]
        exact ⟨_, rfl, fun y hy => by cases hy; omega⟩
  · refine .inr ⟨fun h => ?_, _, rfl, fun y hy => by cases hy; omega⟩
    have hnext := h.2.1
    omega

/-- What follows the key is read outside of the string only if it is an octet for parameters, which
is the last one. -/
theorem skipRest_eq_none (hsmall : x ≤ 2 ^ 31) :
    skipRest bytes base pemLen x = none ↔ EndsInParameters bytes base pemLen x := by
  unfold skipRest
  rcases skipParameters_cases hbase x with ⟨hends, hrun⟩ | ⟨hends, r, hrun, hr⟩
  · rw [hrun]
    exact iff_of_true rfl hends
  · rw [hrun]
    refine iff_of_false ?_ hends
    cases r with
    | none => exact nofun
    | some y =>
      have hy := hr y rfl
      obtain ⟨r, hskip⟩ := skipPublicKey_some hbase (show y ≤ 2 ^ 32 by omega)
      change ¬ (skipPublicKey bytes base pemLen y >>= fun _ => _) = none
      rw [hskip]
      cases r <;> exact nofun

/-- The content of the sequence ends in front of the key or in front of its length, or behind the
type of parameters. -/
def EcdsaEndsEarly (bytes : Bytes) (base pemLen x : ℕ) : Prop :=
  bytes.drop (base + x) <+: [0x02, 0x01, 0x01, 0x04] ∨
  base + pemLen = bytes.length ∧ ∃ (l : UInt8) (key : Bytes), key.length = l.toNat ∧
    bytes.drop (base + x) = [0x02, 0x01, 0x01, 0x04, l] ++ key ++ [0xa0]

omit hbase in
/-- The two ways to say that the type of parameters is the last octet. -/
theorem endsInParameters_iff (pemLen : ℕ) {l : UInt8} {rest : Bytes}
    (hrest : bytes.drop (base + x) = [0x02, 0x01, 0x01, 0x04, l] ++ rest)
    (hfits : base + x ≤ bytes.length) :
    EndsInParameters bytes base pemLen (x + 4 + (1 + l.toNat)) ↔
      EcdsaEndsEarly bytes base pemLen x := by
  have hlength := congrArg List.length hrest
  rw [List.length_drop, List.length_append] at hlength
  have hfive : ([0x02, 0x01, 0x01, 0x04, l] : Bytes).length = 5 := rfl
  have hdrop : bytes.drop (base + (x + 4 + (1 + l.toNat))) = rest.drop l.toNat := by
    rw [show base + (x + 4 + (1 + l.toNat)) = base + x + (5 + l.toNat) by omega, ← List.drop_drop,
      hrest, ← List.drop_drop]
    rfl
  constructor
  · rintro ⟨hend, hnext, htype⟩
    rw [octetAt_eq_head, hdrop] at htype
    have hlast : (rest.drop l.toNat).length = 1 := by
      rw [List.length_drop]
      omega
    obtain ⟨last, hlast⟩ := List.length_eq_one_iff.mp hlast
    rw [hlast] at htype
    cases htype
    refine .inr ⟨hend, l, rest.take l.toNat, List.length_take_of_le (by omega), ?_⟩
    rw [hrest, List.append_assoc, ← hlast, List.take_append_drop]
  · rintro (h | ⟨hend, l', key, hkey, h⟩)
    · have hle := h.length_le
      rw [hrest, List.length_append] at hle
      change 5 + rest.length ≤ 4 at hle
      omega
    · rw [hrest, List.append_assoc] at h
      obtain ⟨hl, rfl⟩ := List.append_inj h rfl
      cases hl
      rw [List.length_append, List.length_singleton] at hlength
      refine ⟨hend, by omega, ?_⟩
      rw [octetAt_eq_head, hdrop, ← hkey, List.drop_left]
      rfl

theorem parseEcdsaContent_eq_none (hlen : pemLen < sizeRange) (hx : x ≤ pemLen) (hsmall : x ≤ 129) :
    parseEcdsaContent bytes base pemLen x = none ↔ EcdsaEndsEarly bytes base pemLen x := by
  have hrange : sizeRange = 2 ^ 64 := rfl
  unfold parseEcdsaContent
  rcases expectOctets_cases bytes (base + x) [0x02, 0x01, 0x01, 0x04] with
    ⟨hends, -, hrun⟩ | ⟨⟨rest, hrest⟩, hrun⟩ | ⟨hends, hother, hrun⟩
  · rw [hrun]
    exact iff_of_true rfl (.inl hends)
  · have hhead : octetAt bytes (base + (x + 4)) = rest.head? := by
      rw [octetAt_eq_head, ← Nat.add_assoc, ← List.drop_drop, ← hrest]
      rfl
    rw [hrun]
    change (octetAt bytes (base + (x + 4)) >>= fun _ => _) = none ↔ _
    rw [hhead]
    cases rest with
    | nil => exact iff_of_true rfl (.inl ⟨[], by rw [← hrest]; rfl⟩)
    | cons l rest =>
      have hl := l.toNat_lt
      have hdrop : bytes.drop (base + x) = [0x02, 0x01, 0x01, 0x04, l] ++ rest := hrest.symm
      have hiff := endsInParameters_iff pemLen hdrop (by omega)
      change (if pemLen ≤ (l.toNat + (x + 4)) % sizeRange then _ else
        skipRest bytes base pemLen (x + 4 + (1 + l.toNat)) >>= fun _ => _) = none ↔ _
      rw [Nat.mod_eq_of_lt (by omega)]
      split_ifs with hexcess
      · refine iff_of_false nofun ?_
        rw [← hiff]
        rintro ⟨-, hnext, -⟩
        omega
      · rw [← hiff, ← skipRest_eq_none hbase (by omega)]
        cases skipRest bytes base pemLen (x + 4 + (1 + l.toNat)) with
        | none => exact iff_of_true rfl rfl
        | some complete => cases complete <;> exact iff_of_false nofun nofun
  · rw [hrun]
    refine iff_of_false nofun ?_
    rintro (h | ⟨-, l, key, -, h⟩)
    · exact hends h
    · refine hother ?_
      rw [h, List.append_assoc]
      exact ⟨l :: (key ++ [0xa0]), rfl⟩

omit hbase in
/-- A key that is found lies in the part of the string that is given. -/
theorem parseEcdsaContent_range (hsmall : x ≤ 129)
    (h : parseEcdsaContent bytes base pemLen x = some (some (i, n))) : i + n ≤ pemLen := by
  have hrange : sizeRange = 2 ^ 64 := rfl
  unfold parseEcdsaContent at h
  obtain ⟨expected, -, h⟩ := Option.bind_eq_some_iff.mp h
  split_ifs at h
  · cases h
  obtain ⟨l, -, h⟩ := Option.bind_eq_some_iff.mp h
  have hl := l.toNat_lt
  split_ifs at h with hexcess
  · cases h
  obtain ⟨complete, -, h⟩ := Option.bind_eq_some_iff.mp h
  rw [Nat.mod_eq_of_lt (by omega)] at hexcess
  split_ifs at h
  · cases h
    omega
  · cases h

/-- The content of the sequence ends in front of the key or in front of its length, or behind the
type of parameters. -/
def EcdsaFieldEndsEarly (bytes : Bytes) (base pemLen : ℕ) : Prop :=
  ∃ x, OpensAt bytes base pemLen x ∧ EcdsaEndsEarly bytes base pemLen x

/-- The field of an ECDSA key is read outside of the string exactly if its content ends early. -/
theorem parseEcdsaField_eq_none (hlen : pemLen < sizeRange) :
    ptlsMbedtlsParseEcdsaField bytes base pemLen = none ↔
      EcdsaFieldEndsEarly bytes base pemLen := by
  unfold ptlsMbedtlsParseEcdsaField
  rcases openSequence_some hbase with hclosed | ⟨x, hopens⟩
  · rw [hclosed]
    refine iff_of_false nofun ?_
    rintro ⟨x, hopens, -⟩
    rw [hopens.openSequence] at hclosed
    cases hclosed
  · obtain ⟨hx, hsmall⟩ := hopens.bounds hbase
    rw [hopens.openSequence]
    refine (parseEcdsaContent_eq_none hbase hlen hx hsmall).trans ⟨fun h => ⟨x, hopens, h⟩, ?_⟩
    rintro ⟨y, hopens', h⟩
    have hsame := hopens.openSequence.symm.trans hopens'.openSequence
    cases hsame
    exact h

theorem parseEcdsaField_range
    (h : ptlsMbedtlsParseEcdsaField bytes base pemLen = some (some (i, n))) : i + n ≤ pemLen := by
  unfold ptlsMbedtlsParseEcdsaField at h
  rcases openSequence_some hbase with hclosed | ⟨x, hopens⟩
  · rw [hclosed] at h
    cases h
  · rw [hopens.openSequence] at h
    exact parseEcdsaContent_range (hopens.bounds hbase).2 h

end Ecdsa

/-! ## All parsers -/

/-- A parser returns, and a range that it returns lies in the string. -/
def StaysInBounds (bytes : Bytes) (outcome : Option (Option (ℕ × ℕ))) : Prop :=
  ∃ result, outcome = some result ∧ ∀ i n, result = some (i, n) → i + n ≤ bytes.length

theorem parseEcdsaField_staysInBounds (hlen : bytes.length < sizeRange) :
    StaysInBounds bytes (ptlsMbedtlsParseEcdsaField bytes 0 bytes.length) ↔
      ¬ EcdsaFieldEndsEarly bytes 0 bytes.length := by
  have hbase : 0 + bytes.length ≤ bytes.length := (Nat.zero_add _).le
  rw [← parseEcdsaField_eq_none hbase hlen]
  constructor
  · rintro ⟨result, hrun, -⟩ hnone
    rw [hrun] at hnone
    cases hnone
  · intro hsome
    obtain ⟨result, hrun⟩ := Option.ne_none_iff_exists'.mp hsome
    refine ⟨result, hrun, fun i n hresult => ?_⟩
    rw [hresult] at hrun
    exact parseEcdsaField_range hbase hrun

theorem parseEcPrivateKey_staysInBounds (hinside : keyIndex + keyLength ≤ bytes.length)
    (hlen : bytes.length < sizeRange) :
    StaysInBounds bytes (ptlsMbedtlsParseEcPrivateKey bytes keyIndex keyLength) ↔
      ¬ EcdsaFieldEndsEarly bytes keyIndex keyLength := by
  rw [← parseEcdsaField_eq_none hinside (by omega)]
  unfold ptlsMbedtlsParseEcPrivateKey
  cases hrun : ptlsMbedtlsParseEcdsaField bytes keyIndex keyLength with
  | none =>
    refine iff_of_false ?_ fun hsome => hsome rfl
    rintro ⟨result, hnone, -⟩
    cases hnone
  | some result =>
    refine iff_of_true ?_ nofun
    cases result with
    | none => exact ⟨none, rfl, nofun⟩
    | some range =>
      obtain ⟨offset, l⟩ := range
      have hle := parseEcdsaField_range hinside hrun
      refine ⟨some (keyIndex + offset, l), rfl, fun i n hresult => ?_⟩
      cases hresult
      omega

/-- Every length in the string ends in it, and its sum with the position is a number of 64 bits. -/
structure LengthsFit (bytes : Bytes) : Prop where
  room : bytes.length + 1 < sizeRange
  length : ∀ x < bytes.length, ∃ y l,
    ptlsMbedtlsParseDerLength bytes 0 bytes.length x = some (y, l) ∧
    y ≤ bytes.length ∧ y + l < sizeRange

/-- In strings of up to 2^56 octets all lengths are like this. -/
theorem lengthsFit_of_le (h : bytes.length ≤ 2 ^ 56) : LengthsFit bytes := by
  have hrange : sizeRange = 2 ^ 64 := rfl
  refine ⟨by omega, fun x hx => ?_⟩
  obtain ⟨y, l, hrun, -, -, hle, -, hsum⟩ := parseDerLength_some (Nat.zero_add _).le hx (.inr h)
  exact ⟨y, l, hrun, hle, hsum h⟩

/-- Parsing an EdDSA key stays in bounds. -/
theorem parseEddsaKey_staysInBounds (hfit : LengthsFit bytes)
    (hinside : keyIndex + keyLength ≤ bytes.length) :
    StaysInBounds bytes (ptlsMbedtlsParseEddsaKey bytes keyIndex keyLength) := by
  unfold ptlsMbedtlsParseEddsaKey
  split_ifs with hshort
  · exact ⟨none, rfl, nofun⟩
  · obtain ⟨type, htype⟩ := octetAt_of_lt (show keyIndex < bytes.length by omega)
    obtain ⟨y, l, hrun, hle, hsum⟩ := hfit.length (keyIndex + 1) (by omega)
    rw [htype, hrun]
    change StaysInBounds bytes (if type ≠ 0x04 then some none else
      if (y + l) % sizeRange ≠ keyIndex + keyLength then some none else some (some (y, l)))
    rw [Nat.mod_eq_of_lt hsum]
    split_ifs with hother hend
    · exact ⟨none, rfl, nofun⟩
    · exact ⟨none, rfl, nofun⟩
    · refine ⟨_, rfl, fun i n hresult => ?_⟩
      cases hresult
      omega

/-- The embedded sequence is empty, and the type of an object identifier is all that follows. -/
def OidEndsEarly (bytes : Bytes) (x : ℕ) : Prop :=
  ∃ y, ptlsMbedtlsParseDerLength bytes 0 bytes.length x = some (y, 0) ∧ bytes.drop y = [0x06]

/-- An object identifier is read outside of the string only if its type is the last octet. -/
theorem readOid_cases {y l : ℕ} (hy : y ≤ bytes.length) (hsmall : y ≤ 261) (hl : l < sizeRange)
    (hsum : bytes.length ≤ 2 ^ 56 → y + l < sizeRange) :
    (l = 0 ∧ bytes.drop y = [0x06] ∧ readOid bytes y l = none) ∨
    (¬ (l = 0 ∧ bytes.drop y = [0x06]) ∧ ∃ result, readOid bytes y l = some result ∧
      ∀ i n next, result = some (i, n, next) → i + n ≤ next ∧ next < bytes.length) := by
  have hrange : sizeRange = 2 ^ 64 := rfl
  have hlast (hdrop : bytes.drop y = [0x06]) : y + 1 = bytes.length := by
    have hlength := congrArg List.length hdrop
    rw [List.length_drop, List.length_singleton] at hlength
    omega
  unfold readOid
  by_cases hexcess : bytes.length ≤ (y + l) % sizeRange
  · rw [if_pos hexcess]
    refine .inr ⟨?_, none, rfl, nofun⟩
    rintro ⟨rfl, hdrop⟩
    have hlast := hlast hdrop
    rw [Nat.add_zero, Nat.mod_eq_of_lt (by omega)] at hexcess
    omega
  · rw [if_neg hexcess]
    have hless : y < bytes.length := by
      by_contra hge
      have hsum := hsum (by omega)
      rw [Nat.mod_eq_of_lt hsum] at hexcess
      omega
    obtain ⟨rest, hdrop⟩ : ∃ rest, bytes.drop y = bytes[y] :: rest :=
      ⟨_, List.drop_eq_getElem_cons hless⟩
    have htype : octetAt bytes y = some bytes[y] := List.getElem?_eq_getElem hless
    rw [htype, hdrop]
    generalize bytes[y] = type at hdrop
    change (_ ∧ _ ∧ (if type ≠ 0x06 then some none else octetAt bytes (y + 1) >>= fun _ => _) =
      none)
      ∨ (_ ∧ ∃ result, (if type ≠ 0x06 then some none else octetAt bytes (y + 1) >>= fun _ => _) =
        some result ∧ _)
    by_cases hother : type ≠ 0x06
    · rw [if_pos hother]
      refine .inr ⟨fun h => hother (List.cons.inj h.2).1, none, rfl, nofun⟩
    · obtain rfl := not_not.mp hother
      rw [if_neg hother]
      cases hnext : octetAt bytes (y + 1) with
      | none =>
        have hend := octetAt_eq_none.mp hnext
        have hlength := congrArg List.length hdrop
        rw [List.length_drop, List.length_cons] at hlength
        obtain rfl : rest = [] := List.length_eq_zero_iff.mp (by omega)
        rw [Nat.mod_eq_of_lt (hsum (by omega))] at hexcess
        exact .inl ⟨by omega, rfl, rfl⟩
      | some lOid =>
        have hlOid := lOid.toNat_lt
        refine .inr ⟨?_, ?_⟩
        · rintro ⟨-, hnil⟩
          have hlast := hlast (hdrop.trans hnil)
          rw [octetAt_eq_none.mpr (by omega)] at hnext
          cases hnext
        · change ∃ result, (if (y + l) % sizeRange < (y + 2 + lOid.toNat) % sizeRange then some none
            else some (some (y + 2, lOid.toNat, (y + l) % sizeRange))) = some result ∧ _
          rw [Nat.mod_eq_of_lt (show y + 2 + lOid.toNat < sizeRange by omega)]
          split_ifs with hoid
          · exact ⟨none, rfl, nofun⟩
          · refine ⟨_, rfl, fun i n next hresult => ?_⟩
            cases hresult
            exact ⟨not_lt.mp hoid, not_le.mp hexcess⟩

theorem parseOid_cases {x : ℕ} (hx : x < bytes.length) (hsmall : x ≤ 133) :
    (OidEndsEarly bytes x ∧ parseOid bytes x = none) ∨
    (¬ OidEndsEarly bytes x ∧ ∃ result, parseOid bytes x = some result ∧
      ∀ i n next, result = some (i, n, next) → i + n ≤ next ∧ next < bytes.length) := by
  obtain ⟨y, l, hrun, hlow, hhigh, hle, hl, hsum⟩ :=
    parseDerLength_some (Nat.zero_add _).le hx (by omega)
  have hparse : parseOid bytes x = readOid bytes y l := by
    unfold parseOid
    rw [hrun]
    rfl
  rw [hparse]
  rcases readOid_cases hle (by omega) hl hsum with ⟨rfl, hdrop, hnone⟩ | ⟨hother, hresult⟩
  · exact .inl ⟨⟨y, hrun, hdrop⟩, hnone⟩
  · refine .inr ⟨?_, hresult⟩
    rintro ⟨y', hrun', hdrop⟩
    rw [hrun] at hrun'
    cases hrun'
    exact hother ⟨rfl, hdrop⟩

/-- The octet string with the key is parsed within the string. -/
theorem parseKey_some (hfit : LengthsFit bytes) {x : ℕ} (hx : x < bytes.length) :
    ∃ result, parseKey bytes x = some result ∧
      ∀ i n, result = some (i, n) → i + n ≤ bytes.length := by
  have hroom := hfit.room
  unfold parseKey
  rw [Nat.mod_eq_of_lt (by omega)]
  split_ifs with hshort
  · exact ⟨none, rfl, nofun⟩
  · obtain ⟨type, htype⟩ := octetAt_of_lt hx
    obtain ⟨y, l, hrun, hle, hsum⟩ := hfit.length (x + 1) (by omega)
    rw [htype, hrun]
    change ∃ result, (if type ≠ 0x04 then some none else
      if bytes.length < (y + l) % sizeRange then some none else some (some (y, l))) =
        some result ∧ _
    rw [Nat.mod_eq_of_lt hsum]
    split_ifs with hother hexcess
    · exact ⟨none, rfl, nofun⟩
    · exact ⟨none, rfl, nofun⟩
    · refine ⟨_, rfl, fun i n hresult => ?_⟩
      cases hresult
      exact not_lt.mp hexcess

/-- The content of the sequence ends in front of the embedded sequence or in front of its length, or
the embedded sequence is empty and followed by the type of an object identifier. -/
def ContentEndsEarly (bytes : Bytes) (x : ℕ) : Prop :=
  bytes.drop x <+: [0x02, 0x01, 0x00, 0x30] ∨
  [0x02, 0x01, 0x00, 0x30] <+: bytes.drop x ∧ OidEndsEarly bytes (x + 4)

/-- A parser of private keys returns, and the ranges that it returns lie in the string. -/
def RangesStayInBounds (bytes : Bytes) (outcome : Option (Option KeyRanges)) : Prop :=
  ∃ result, outcome = some result ∧ ∀ r, result = some r →
    r.oidIndex + r.oidLength ≤ bytes.length ∧ r.keyIndex + r.keyLength ≤ bytes.length

theorem parsePrivateKeyContent_cases {x : ℕ} (hx : x ≤ bytes.length) (hsmall : x ≤ 129) :
    (ContentEndsEarly bytes x ∧ parsePrivateKeyContent bytes x = none) ∨
    (¬ ContentEndsEarly bytes x ∧
      (LengthsFit bytes → RangesStayInBounds bytes (parsePrivateKeyContent bytes x))) := by
  unfold parsePrivateKeyContent
  rcases expectOctets_cases bytes x [0x02, 0x01, 0x00, 0x30] with
    ⟨hends, -, hrun⟩ | ⟨hstarts, hrun⟩ | ⟨hends, hother, hrun⟩
  · rw [hrun]
    exact .inl ⟨.inl hends, rfl⟩
  · rw [hrun]
    obtain ⟨rest, hrest⟩ := hstarts
    have hlength := congrArg List.length hrest
    rw [List.length_append, List.length_drop] at hlength
    change 4 + rest.length = _ at hlength
    change (_ ∧ (parseOid bytes (x + 4) >>= fun _ => _) = none) ∨ (_ ∧ (_ →
      RangesStayInBounds bytes (parseOid bytes (x + 4) >>= fun _ => _)))
    cases rest with
    | nil =>
      have hnone : parseOid bytes (x + 4) = none := by
        unfold parseOid ptlsMbedtlsParseDerLength
        rw [Nat.zero_add, octetAt_eq_none.mpr (by rw [List.length_nil] at hlength; omega)]
        rfl
      rw [hnone]
      exact .inl ⟨.inl ⟨[], by rw [← hrest]; rfl⟩, rfl⟩
    | cons octet rest =>
      rw [List.length_cons] at hlength
      have hlong : ¬ bytes.drop x <+: [0x02, 0x01, 0x00, 0x30] := by
        intro h
        have hle := h.length_le
        rw [List.length_drop] at hle
        change _ ≤ 4 at hle
        omega
      rcases parseOid_cases (show x + 4 < bytes.length by omega) (by omega) with
        ⟨hearly, hnone⟩ | ⟨hearly, result, hoid, hresult⟩
      · rw [hnone]
        exact .inl ⟨.inr ⟨⟨_, hrest⟩, hearly⟩, rfl⟩
      · rw [hoid]
        refine .inr ⟨fun h => h.elim hlong fun h => hearly h.2, fun hfit => ?_⟩
        rcases result with - | ⟨i, n, next⟩
        · exact ⟨none, rfl, nofun⟩
        · obtain ⟨hrange, hnext⟩ := hresult i n next rfl
          obtain ⟨result, hkey, hkeyRange⟩ := parseKey_some hfit hnext
          change RangesStayInBounds bytes (parseKey bytes next >>= fun _ => _)
          rw [hkey]
          rcases result with - | ⟨i', n'⟩
          · exact ⟨none, rfl, nofun⟩
          · refine ⟨some ⟨i, n, i', n'⟩, rfl, fun r hr => ?_⟩
            cases hr
            exact ⟨hrange.trans hnext.le, hkeyRange i' n' rfl⟩
  · rw [hrun]
    refine .inr ⟨?_, fun _ => ⟨none, rfl, nofun⟩⟩
    rintro (h | ⟨h, -⟩)
    · exact hends h
    · exact hother h

/-- The content of the outer sequence ends early. -/
def PrivateKeyEndsEarly (bytes : Bytes) : Prop :=
  ∃ x, OpensAt bytes 0 bytes.length x ∧ ContentEndsEarly bytes x

theorem testParsePrivateKeyField_cases (bytes : Bytes) :
    (PrivateKeyEndsEarly bytes ∧ testParsePrivateKeyField bytes = none) ∨
    (¬ PrivateKeyEndsEarly bytes ∧
      (LengthsFit bytes → RangesStayInBounds bytes (testParsePrivateKeyField bytes))) := by
  have hbase : 0 + bytes.length ≤ bytes.length := (Nat.zero_add _).le
  unfold testParsePrivateKeyField
  rcases openSequence_some hbase with hclosed | ⟨x, hopens⟩
  · rw [hclosed]
    refine .inr ⟨?_, fun _ => ⟨none, rfl, nofun⟩⟩
    rintro ⟨x, hopens, -⟩
    rw [hopens.openSequence] at hclosed
    cases hclosed
  · obtain ⟨hx, hsmall⟩ := hopens.bounds hbase
    rw [hopens.openSequence]
    refine (parsePrivateKeyContent_cases hx hsmall).imp (fun h => ⟨⟨x, hopens, h.1⟩, h.2⟩)
      fun h => ⟨?_, h.2⟩
    rintro ⟨y, hopens', hends⟩
    have hsame := hopens.openSequence.symm.trans hopens'.openSequence
    cases hsame
    exact h.1 hends

/-- The parsers read only octets of the string, and the ranges that they return lie in it. -/
structure ParsersStayInBounds (bytes : Bytes) (keyIndex keyLength : ℕ) : Prop where
  privateKey : RangesStayInBounds bytes (testParsePrivateKeyField bytes)
  ecdsaField : StaysInBounds bytes (ptlsMbedtlsParseEcdsaField bytes 0 bytes.length)
  ecPrivateKey : StaysInBounds bytes (ptlsMbedtlsParseEcPrivateKey bytes keyIndex keyLength)
  eddsaKey : StaysInBounds bytes (ptlsMbedtlsParseEddsaKey bytes keyIndex keyLength)

/-- No sequence ends where an octet of its content is read. -/
structure NoneEndsEarly (bytes : Bytes) (keyIndex keyLength : ℕ) : Prop where
  privateKey : ¬ PrivateKeyEndsEarly bytes
  ecdsaField : ¬ EcdsaFieldEndsEarly bytes 0 bytes.length
  ecPrivateKey : ¬ EcdsaFieldEndsEarly bytes keyIndex keyLength

/-- The parsers stay in bounds only if no sequence ends early, and in strings in which all lengths
fit, as in all of up to 2^56 octets, this is enough. -/
theorem parsersStayInBounds_iff (bytes : Bytes) (keyIndex keyLength : ℕ)
    (hinside : keyIndex + keyLength ≤ bytes.length) (hlen : bytes.length < sizeRange) :
    (ParsersStayInBounds bytes keyIndex keyLength → NoneEndsEarly bytes keyIndex keyLength) ∧
    (LengthsFit bytes →
      (ParsersStayInBounds bytes keyIndex keyLength ↔ NoneEndsEarly bytes keyIndex keyLength)) ∧
    (bytes.length ≤ 2 ^ 56 → LengthsFit bytes) := by
  have hnecessary (h : ParsersStayInBounds bytes keyIndex keyLength) :
      NoneEndsEarly bytes keyIndex keyLength := by
    refine ⟨fun hends => ?_, (parseEcdsaField_staysInBounds hlen).mp h.ecdsaField,
      (parseEcPrivateKey_staysInBounds hinside hlen).mp h.ecPrivateKey⟩
    rcases testParsePrivateKeyField_cases bytes with ⟨-, hnone⟩ | ⟨hends', -⟩
    · obtain ⟨result, hresult, -⟩ := h.privateKey
      rw [hnone] at hresult
      cases hresult
    · exact hends' hends
  refine ⟨hnecessary, fun hfit => ⟨hnecessary, fun h => ?_⟩, lengthsFit_of_le⟩
  constructor
  · rcases testParsePrivateKeyField_cases bytes with ⟨hends, -⟩ | ⟨-, hstays⟩
    · exact absurd hends h.privateKey
    · exact hstays hfit
  · exact (parseEcdsaField_staysInBounds hlen).mpr h.ecdsaField
  · exact (parseEcPrivateKey_staysInBounds hinside hlen).mpr h.ecPrivateKey
  · exact parseEddsaKey_staysInBounds hfit hinside

/-- A private key for Ed25519. -/
def eddsaPrivateKey : Bytes :=
  [0x30, 0x2e, 0x02, 0x01, 0x00, 0x30, 0x05, 0x06, 0x03, 0x2b, 0x65, 0x70, 0x04, 0x22,
    0x04, 0x20] ++ List.replicate 32 0x9d

/-- Of a key that is well-formed, the parsers return the object identifier and the key. -/
theorem eddsaPrivateKey_parsed :
    testParsePrivateKeyField eddsaPrivateKey = some (some ⟨9, 3, 14, 34⟩) ∧
    ptlsMbedtlsParseEddsaKey eddsaPrivateKey 14 34 = some (some (16, 32)) ∧
    ParsersStayInBounds eddsaPrivateKey 14 34 ∧ NoneEndsEarly eddsaPrivateKey 14 34 := by
  have hstays : ParsersStayInBounds eddsaPrivateKey 14 34 := by
    refine ⟨⟨_, rfl, ?_⟩, ⟨none, rfl, ?_⟩, ⟨none, rfl, ?_⟩, ⟨some (16, 32), rfl, ?_⟩⟩
    · rintro r ⟨⟩
      decide
    · rintro i n ⟨⟩
    · rintro i n ⟨⟩
    · rintro i n ⟨⟩
      decide
  exact ⟨rfl, rfl, hstays,
    (parsersStayInBounds_iff eddsaPrivateKey 14 34 (by decide) (by decide)).1 hstays⟩

/-- A length of zero in fourteen octets, behind which nothing is left; the type of parameters as the
last octet; and an empty sequence, followed by the type of an object identifier. -/
theorem parsers_read_outside :
    testParsePrivateKeyField ([0x30, 0x8e] ++ List.replicate 14 0) = none ∧
    ptlsMbedtlsParseEcdsaField ([0x30, 0x8e] ++ List.replicate 14 0) 0 16 = none ∧
    ptlsMbedtlsParseEcPrivateKey ([0x30, 0x8e] ++ List.replicate 14 0) 0 16 = none ∧
    ptlsMbedtlsParseEcdsaField
      [0x30, 0x0e, 0x02, 0x01, 0x01, 0x04, 8, 1, 2, 3, 4, 5, 6, 7, 8, 0xa0] 0 16 = none ∧
    testParsePrivateKeyField
      [0x30, 0x0e, 0x02, 0x01, 0x00, 0x30, 0x88, 0, 0, 0, 0, 0, 0, 0, 0, 0x06] = none := by
  refine ⟨rfl, rfl, rfl, rfl, rfl⟩

end Picotls.MbedTls
