import Mathlib.Data.List.Induction
import Mathlib.Data.List.TakeWhile
import Picotls.Pem.Base64

/-!
# Decoding without memory

The decoder is compared with a function on text: from the sextets of an incomplete quantum, a line
gives octets and either the sextets of the next incomplete quantum, or the end of the encoding with
the text that is ignored behind it, or an error. The code does the same as long as the buffer can
hold what is decoded, and it stays in place if there is room for it from the beginning.
-/

namespace Picotls.Pem

open Foundation Procedure Buffers

variable {st : DecodeState} {sextets : List ℕ} {c : UInt8} {n : ℕ}

/-! ## Quanta -/

/-- The number that sextets stand for. -/
def sextetValue (sextets : List ℕ) : ℕ := sextets.foldl (fun v n => v * 64 + n) 0

@[simp] theorem sextetValue_append_singleton (sextets : List ℕ) (n : ℕ) :
    sextetValue (sextets ++ [n]) = sextetValue sextets * 64 + n := by
  simp [sextetValue]

/-- Sextets of a quantum that is not complete. -/
structure IsQuantum (sextets : List ℕ) : Prop where
  length_le : sextets.length ≤ 3
  lt : ∀ n ∈ sextets, n < 64

theorem isQuantum_nil : IsQuantum [] := ⟨by decide, by simp⟩

theorem sextetValue_lt (h : ∀ n ∈ sextets, n < 64) : sextetValue sextets < 64 ^ sextets.length := by
  induction sextets using List.reverseRecOn with
  | nil => decide
  | append_singleton sextets n ih =>
    have hlast : n < 64 := h n (by simp)
    have hfirst := ih fun m hm => h m (by simp [hm])
    rw [sextetValue_append_singleton, List.length_append, List.length_singleton, pow_succ]
    omega

/-- Octets of a number of 24 bits, from the first one on. -/
def leadingOctets (count v : ℕ) : Bytes :=
  (List.range count).map fun j => UInt8.ofNat (v >>> (8 * (2 - j)))

@[simp] theorem leadingOctets_length (count v : ℕ) : (leadingOctets count v).length = count := by
  simp [leadingOctets]

/-! ## Characters -/

/-- A character has a value below 64, or none. -/
theorem base64Value_range (c : UInt8) :
    base64Value c = -1 ∨ 0 ≤ base64Value c ∧ (base64Value c).toNat < 64 := by
  revert c
  apply forall_octet
  decide +kernel

/-- A character of the alphabet. -/
def IsDigit (c : UInt8) : Prop := base64Value c ≠ -1

instance (c : UInt8) : Decidable (IsDigit c) := inferInstanceAs (Decidable (_ ≠ _))

/-! ## Lines -/

/-- What comes of a line. -/
inductive LineResult where
  | pending (out : Bytes) (sextets : List ℕ)
  | padded (out ignored : Bytes)
  | garbage (out : Bytes)

namespace LineResult

/-- The octets that were decoded. -/
def out : LineResult → Bytes
  | pending out _ => out
  | padded out _ => out
  | garbage out => out

/-- Octets that were decoded before. -/
def behind (before : Bytes) : LineResult → LineResult
  | pending out sextets => pending (before ++ out) sextets
  | padded out ignored => padded (before ++ out) ignored
  | garbage out => garbage (before ++ out)

@[simp] theorem out_behind (before : Bytes) (result : LineResult) :
    (result.behind before).out = before ++ result.out := by
  cases result <;> rfl

@[simp] theorem behind_nil (result : LineResult) : result.behind [] = result := by
  cases result <;> rfl

theorem behind_behind (first second : Bytes) (result : LineResult) :
    (result.behind second).behind first = result.behind (first ++ second) := by
  cases result <;> simp [behind]

end LineResult

/-- Decode text from the sextets of an incomplete quantum on. -/
def decodeText : List ℕ → Bytes → LineResult
  | sextets, [] => .pending [] sextets
  | sextets, c :: rest =>
    if IsDigit c then
      if sextets.length = 3 then
        (decodeText [] rest).behind
          (leadingOctets 3 (sextetValue (sextets ++ [(base64Value c).toNat])))
      else decodeText (sextets ++ [(base64Value c).toNat]) rest
    else if sextets.length = 2 ∧ c = padSign ∧ rest.head? = some padSign then
      .padded (leadingOctets 1 (sextetValue sextets * 64 ^ 2)) rest.tail
    else if sextets.length = 3 ∧ c = padSign then
      .padded (leadingOctets 2 (sextetValue sextets * 64)) rest
    else if (c :: rest).dropWhile isFinalBlank = [] then .pending [] sextets
    else .garbage []

/-- The state of the decoder in an incomplete quantum. -/
def stateOf (sextets : List ℕ) : DecodeState :=
  ⟨sextets.length, 3, sextetValue sextets, .inProgress⟩

theorem stateOf_nil : stateOf [] = ptlsBase64DecodeInit := rfl

/-- A character is shifted in behind the sextets of a quantum. -/
theorem shiftIn_sextetValue (h : IsQuantum sextets) (hn : n < 64) :
    shiftIn (sextetValue sextets) n = sextetValue (sextets ++ [n]) := by
  have hvalue := sextetValue_lt h.lt
  have hpow : 64 ^ sextets.length ≤ 64 ^ 3 := Nat.pow_le_pow_right (by decide) h.length_le
  have hsmall : sextetValue sextets <<< 6 < 2 ^ 32 := by
    rw [Nat.shiftLeft_eq]
    omega
  rw [shiftIn, Nat.mod_eq_of_lt hsmall, ← Nat.shiftLeft_add_eq_or_of_lt (by omega),
    sextetValue_append_singleton, Nat.shiftLeft_eq]

theorem isQuantum_append (h : IsQuantum sextets) (hn : n < 64) (hlength : sextets.length ≠ 3) :
    IsQuantum (sextets ++ [n]) := by
  have hle := h.length_le
  refine ⟨by simp; omega, fun m hm => ?_⟩
  rcases List.mem_append.mp hm with hm | hm
  · exact h.lt m hm
  · rwa [List.mem_singleton.mp hm]

/-! ## The buffer -/

variable {build : Build} {s t : Store} {octets out : Bytes}

/-- What the code does with a line that decodes so. -/
inductive Decodes (build : Build) (s : Store) (octets : Bytes) :
    LineResult → Except Stop Unit × (Store × DecodeState) → Prop
  | pending {out : Bytes} {sextets : List ℕ} {t : Store} (holds : Holds build s octets out t) :
      Decodes build s octets (.pending out sextets) (.ok (), (t, stateOf sextets))
  | padded {out ignored : Bytes} {t : Store} {st : DecodeState}
      (holds : Holds build s octets out t) (status : st.status = .done) :
      Decodes build s octets (.padded out ignored) (.ok (), (t, st))
  | garbage {out : Bytes} {t : Store} {st : DecodeState} (holds : Holds build s octets out t)
      (status : st.status = .failed) :
      Decodes build s octets (.garbage out) (.error (.code incorrectBase64), (t, st))
  | refused {result : LineResult} {t : Store} {st : DecodeState}
      (refused : Refused build s octets result.out t) :
      Decodes build s octets result (.error (.code Error.noMemory), (t, st))

theorem skipTrailing_eq (rest : Bytes) : skipTrailing rest = [] := by
  induction rest with
  | nil => rfl
  | cons c rest ih => rw [skipTrailing, ite_self, ih]

/-- A padded quantum ends the decoding, whatever stands behind it. -/
theorem convertQuantum_padded (h : Holds build s octets out t) {count : ℕ} (hcount : count < 3)
    (v : ℕ) (rest ignored : Bytes) :
    Decodes build s octets (.padded (out ++ leadingOctets count v) ignored)
      ((convertQuantum rest >>= fun _ => pure ()) build (t, ⟨4, count, v, .inProgress⟩)) := by
  have hconvert : convertQuantum rest build (t, ⟨4, count, v, .inProgress⟩) =
      (onBuffer (ptlsBufferDoPushv (leadingOctets count v)) >>= fun _ => do
        setState ⟨4, count, v, .done⟩
        return false) build (t, ⟨4, count, v, .inProgress⟩) := by
    change (onBuffer (ptlsBufferDoPushv (leadingOctets count v)) >>= fun _ =>
      if count < 3 then (if skipTrailing rest = [] then _ else _) else _ :
        DecodeProc Bool) build _ = _
    rw [if_pos hcount, if_pos (skipTrailing_eq rest)]
  rcases h.push (leadingOctets count v) with ⟨u, hpush, hholds⟩ | ⟨u, hpush, hrefused⟩
  · have hon : onBuffer (ptlsBufferDoPushv (leadingOctets count v)) build
        (t, ⟨4, count, v, .inProgress⟩) = (.ok (), (u, ⟨4, count, v, .inProgress⟩)) := by
      rw [onBuffer, hpush]
    rw [bind_run, hconvert, bind_of_ok hon]
    exact .padded hholds rfl
  · have hon : onBuffer (ptlsBufferDoPushv (leadingOctets count v)) build
        (t, ⟨4, count, v, .inProgress⟩) =
        (.error (.code Error.noMemory), (u, ⟨4, count, v, .inProgress⟩)) := by
      rw [onBuffer, hpush]
    rw [bind_run, hconvert, bind_of_error hon]
    exact .refused hrefused

/-- A complete quantum of four characters is converted, and the loop goes on in a new one. -/
theorem convertQuantum_full (h : Holds build s octets out t) (v : ℕ) (rest : Bytes) :
    (∃ u, convertQuantum rest build (t, ⟨4, 3, v, .inProgress⟩) =
        (.ok true, (u, ptlsBase64DecodeInit)) ∧
        Holds build s octets (out ++ leadingOctets 3 v) u) ∨
      ∃ u, convertQuantum rest build (t, ⟨4, 3, v, .inProgress⟩) =
        (.error (.code Error.noMemory), (u, ⟨4, 3, v, .inProgress⟩)) ∧
        Refused build s octets (out ++ leadingOctets 3 v) u := by
  have hconvert : convertQuantum rest build (t, ⟨4, 3, v, .inProgress⟩) =
      (onBuffer (ptlsBufferDoPushv (leadingOctets 3 v)) >>= fun _ => do
        setState ptlsBase64DecodeInit
        return true) build (t, ⟨4, 3, v, .inProgress⟩) := rfl
  rw [hconvert]
  rcases h.push (leadingOctets 3 v) with ⟨u, hpush, hholds⟩ | ⟨u, hpush, hrefused⟩
  · have hon : onBuffer (ptlsBufferDoPushv (leadingOctets 3 v)) build
        (t, ⟨4, 3, v, .inProgress⟩) = (.ok (), (u, ⟨4, 3, v, .inProgress⟩)) := by
      rw [onBuffer, hpush]
    rw [bind_of_ok hon]
    exact .inl ⟨u, rfl, hholds⟩
  · have hon : onBuffer (ptlsBufferDoPushv (leadingOctets 3 v)) build
        (t, ⟨4, 3, v, .inProgress⟩) =
        (.error (.code Error.noMemory), (u, ⟨4, 3, v, .inProgress⟩)) := by
      rw [onBuffer, hpush]
    rw [bind_of_error hon]
    exact .inr ⟨u, rfl, hrefused⟩

/-- The state after another character of the alphabet. -/
theorem decodeLoop_digit (hq : IsQuantum sextets) (hc : IsDigit c) (rest : Bytes) :
    decodeLoop (c :: rest) build (t, stateOf sextets) =
      (convertQuantum rest >>= fun goesOn => if goesOn then decodeLoop rest else pure ()) build
        (t, ⟨sextets.length + 1, 3, sextetValue (sextets ++ [(base64Value c).toNat]),
          .inProgress⟩) := by
  have hn : (base64Value c).toNat < 64 := ((base64Value_range c).resolve_left hc).2
  rw [← shiftIn_sextetValue hq hn]
  change (if base64Value c = -1 then decodeOther (stateOf sextets) c rest else _ : DecodeProc Unit)
    build (t, stateOf sextets) = _
  rw [if_neg hc]
  rfl

/-- Any other character. -/
theorem decodeLoop_other (sextets : List ℕ) (hc : ¬ IsDigit c) (rest : Bytes) :
    decodeLoop (c :: rest) build (t, stateOf sextets) =
      decodeOther (stateOf sextets) c rest build (t, stateOf sextets) := by
  change (if base64Value c = -1 then decodeOther (stateOf sextets) c rest else _ : DecodeProc Unit)
    build (t, stateOf sextets) = _
  rw [if_pos (not_not.mp hc)]

/-- Sextets that are filled up to a number of 24 bits. -/
theorem sextetValue_shift (h : IsQuantum sextets) {missing : ℕ}
    (hmissing : sextets.length + missing = 4) :
    sextetValue sextets <<< (6 * missing) % 2 ^ 32 = sextetValue sextets * 64 ^ missing := by
  have hvalue := sextetValue_lt h.lt
  have hpow : (2 : ℕ) ^ (6 * missing) = 64 ^ missing := Nat.pow_mul 2 6 missing
  rw [Nat.shiftLeft_eq, hpow, Nat.mod_eq_of_lt]
  calc sextetValue sextets * 64 ^ missing
      < 64 ^ sextets.length * 64 ^ missing :=
        Nat.mul_lt_mul_of_pos_right hvalue (Nat.pow_pos (by decide))
    _ = 64 ^ 4 := by rw [← Nat.pow_add, hmissing]
    _ < 2 ^ 32 := by decide

/-- Any other character ends the line, as padding, as a blank or as an error. -/
theorem decodeOther_decodes (hq : IsQuantum sextets) (h : Holds build s octets out t)
    (hc : ¬ IsDigit c) (rest : Bytes) :
    Decodes build s octets ((decodeText sextets (c :: rest)).behind out)
      (decodeOther (stateOf sextets) c rest build (t, stateOf sextets)) := by
  rw [decodeText, if_neg hc, decodeOther]
  change Decodes build s octets _ ((if sextets.length = 2 ∧ c = padSign ∧
    rest.head? = some padSign then _ else if sextets.length = 3 ∧ c = padSign then _ else
    _ : DecodeProc Unit) build (t, stateOf sextets))
  by_cases htwo : sextets.length = 2 ∧ c = padSign ∧ rest.head? = some padSign
  · have hshift : sextetValue sextets <<< 12 % 2 ^ 32 = sextetValue sextets * 64 ^ 2 :=
      sextetValue_shift hq (by omega : sextets.length + 2 = 4)
    rw [if_pos htwo, if_pos htwo, ← hshift]
    exact convertQuantum_padded h (by decide : 1 < 3) _ rest.tail rest.tail
  rw [if_neg htwo, if_neg htwo]
  by_cases hone : sextets.length = 3 ∧ c = padSign
  · have hshift : sextetValue sextets <<< 6 % 2 ^ 32 = sextetValue sextets * 64 ^ 1 :=
      sextetValue_shift hq (by omega : sextets.length + 1 = 4)
    rw [Nat.pow_one] at hshift
    rw [if_pos hone, if_pos hone, ← hshift]
    exact convertQuantum_padded h (by decide : 2 < 3) _ rest rest
  rw [if_neg hone, if_neg hone]
  by_cases hblank : (c :: rest).dropWhile isFinalBlank = []
  · rw [if_pos hblank, if_pos hblank, LineResult.behind, List.append_nil]
    exact .pending h
  · rw [if_neg hblank, if_neg hblank, LineResult.behind, List.append_nil]
    exact .garbage h rfl

/-- The code decodes text as the function on text does, or runs out of memory. -/
theorem decodeLoop_decodes {sextets : List ℕ} (hq : IsQuantum sextets)
    (h : Holds build s octets out t) (text : Bytes) :
    Decodes build s octets ((decodeText sextets text).behind out)
      (decodeLoop text build (t, stateOf sextets)) := by
  induction text generalizing sextets out t with
  | nil =>
    rw [decodeText, LineResult.behind, List.append_nil]
    exact .pending h
  | cons c rest ih =>
    by_cases hc : IsDigit c
    swap
    · rw [decodeLoop_other sextets hc]
      exact decodeOther_decodes hq h hc rest
    have hn : (base64Value c).toNat < 64 := ((base64Value_range c).resolve_left hc).2
    rw [decodeText, if_pos hc, decodeLoop_digit hq hc]
    by_cases hfull : sextets.length = 3
    · rw [if_pos hfull, hfull, LineResult.behind_behind]
      rcases convertQuantum_full h (sextetValue (sextets ++ [(base64Value c).toNat])) rest
        with ⟨u, hconvert, hholds⟩ | ⟨u, hconvert, hrefused⟩
      · rw [bind_of_ok hconvert]
        exact ih isQuantum_nil hholds
      · rw [bind_of_error hconvert]
        refine .refused ?_
        rw [LineResult.out_behind]
        exact hrefused.mono
    · have hconvert : convertQuantum rest build (t, ⟨sextets.length + 1, 3,
          sextetValue (sextets ++ [(base64Value c).toNat]), .inProgress⟩) =
          (.ok true, (t, stateOf (sextets ++ [(base64Value c).toNat]))) := by
        change (if sextets.length + 1 = 4 then _ else _ : DecodeProc Bool) build _ = _
        rw [if_neg (by omega), stateOf, List.length_append]
        rfl
      rw [if_neg hfull, bind_of_ok hconvert]
      exact ih (isQuantum_append hq hn hfull) h

/-! ## Sequences of lines -/

/-- A decoding that is over takes every line. -/
theorem ptlsBase64Decode_over (hst : st.status ≠ .inProgress) (text : Bytes) :
    ptlsBase64Decode text build (t, st) = (.ok (), (t, st)) := by
  unfold ptlsBase64Decode
  cases text.dropWhile isBlank with
  | nil => rfl
  | cons c rest =>
    change (if st.status ≠ .inProgress then pure () else _ : DecodeProc Unit) build (t, st) = _
    rw [if_pos hst]
    rfl

/-- The sextets that are pending are those of an incomplete quantum. -/
theorem isQuantum_of_decodeText {pending : List ℕ} {text : Bytes} (hq : IsQuantum sextets)
    (h : decodeText sextets text = .pending out pending) : IsQuantum pending := by
  induction text generalizing sextets out with
  | nil =>
    cases h
    exact hq
  | cons c rest ih =>
    rw [decodeText] at h
    by_cases hc : IsDigit c
    · have hn : (base64Value c).toNat < 64 := ((base64Value_range c).resolve_left hc).2
      rw [if_pos hc] at h
      by_cases hfull : sextets.length = 3
      · rw [if_pos hfull] at h
        cases hrest : decodeText [] rest with
        | pending out' sextets' =>
          rw [hrest] at h
          cases h
          exact ih isQuantum_nil hrest
        | padded => simp [hrest, LineResult.behind] at h
        | garbage => simp [hrest, LineResult.behind] at h
      · rw [if_neg hfull] at h
        exact ih (isQuantum_append hq hn hfull) h
    · rw [if_neg hc] at h
      split at h
      · cases h
      split at h
      · cases h
      split at h
      · cases h
        exact hq
      · cases h

/-- The lines of a text in order: what each call returns, and what is left at the end. -/
def decodeCalls (build : Build) : List Bytes → Store × DecodeState →
    List (Except Stop Unit) × (Store × DecodeState)
  | [], s => ([], s)
  | line :: lines, s =>
    let (result, s) := ptlsBase64Decode line build s
    let (results, s) := decodeCalls build lines s
    (result :: results, s)

/-- A call for one of the lines returns for want of memory and leaves the store. -/
def RunsOut (build : Build) (lines : List Bytes) (s : Store × DecodeState) (t : Store) : Prop :=
  ∃ before line after st, lines = before ++ line :: after ∧
    ptlsBase64Decode line build (decodeCalls build before s).2 =
      (.error (.code Error.noMemory), (t, st))

/-- Decode lines, without memory. -/
def decodeLines : List ℕ → List Bytes → LineResult
  | sextets, [] => .pending [] sextets
  | sextets, line :: lines =>
    match decodeText sextets (line.dropWhile isBlank) with
    | .pending out sextets => (decodeLines sextets lines).behind out
    | .padded out ignored => .padded out (ignored ++ lines.flatten)
    | .garbage out => .garbage out

/-- What the calls for lines that decode so return and leave. -/
inductive CallsDecode (build : Build) (s : Store) (octets : Bytes) (lines : List Bytes)
    (start : Store × DecodeState) : LineResult →
      List (Except Stop Unit) × (Store × DecodeState) → Prop
  | pending {out : Bytes} {sextets : List ℕ} {results : List (Except Stop Unit)} {t : Store}
      (all : ∀ r ∈ results, r = .ok ()) (holds : Holds build s octets out t) :
      CallsDecode build s octets lines start (.pending out sextets)
        (results, (t, stateOf sextets))
  | padded {out ignored : Bytes} {results : List (Except Stop Unit)} {t : Store} {st : DecodeState}
      (all : ∀ r ∈ results, r = .ok ()) (holds : Holds build s octets out t)
      (status : st.status = .done) :
      CallsDecode build s octets lines start (.padded out ignored) (results, (t, st))
  | garbage {out : Bytes} {results : List (Except Stop Unit)} {final : Store × DecodeState}
      (error : .error (.code incorrectBase64) ∈ results) :
      CallsDecode build s octets lines start (.garbage out) (results, final)
  | refused {result : LineResult} {results : List (Except Stop Unit)} {final : Store × DecodeState}
      {u : Store} (error : .error (.code Error.noMemory) ∈ results)
      (runsOut : RunsOut build lines start u) (refused : Refused build s octets result.out u) :
      CallsDecode build s octets lines start result (results, final)

/-- A call that returned zero before the others. -/
theorem CallsDecode.cons_ok {line : Bytes} {lines : List Bytes} {start final : Store × DecodeState}
    {result : LineResult} {results : List (Except Stop Unit)}
    (h : CallsDecode build s octets lines (ptlsBase64Decode line build start).2 result
      (results, final)) :
    CallsDecode build s octets (line :: lines) start result (.ok () :: results, final) := by
  cases h with
  | pending hall hholds => exact .pending (by simpa using hall) hholds
  | padded hall hholds hstatus => exact .padded (by simpa using hall) hholds hstatus
  | garbage herror => exact .garbage (List.mem_cons_of_mem _ herror)
  | refused herror hrunsOut hrefused =>
    obtain ⟨before, last, after, st, rfl, hrun⟩ := hrunsOut
    exact .refused (List.mem_cons_of_mem _ herror) ⟨line :: before, last, after, st, rfl, hrun⟩
      hrefused

/-- After the end of the encoding every call returns zero. -/
theorem decodeCalls_over (build : Build) (t : Store) (hst : st.status ≠ .inProgress)
    (lines : List Bytes) :
    (∀ r ∈ (decodeCalls build lines (t, st)).1, r = .ok ()) ∧
      (decodeCalls build lines (t, st)).2 = (t, st) := by
  induction lines with
  | nil => exact ⟨by simp [decodeCalls], rfl⟩
  | cons line lines ih =>
    simp only [decodeCalls, ptlsBase64Decode_over hst]
    exact ⟨by simpa using ih.1, ih.2⟩

/-- The calls for lines decode as the function on lines does, or memory runs out. -/
theorem decodeCalls_decode (hq : IsQuantum sextets) (h : Holds build s octets out t)
    (lines : List Bytes) :
    CallsDecode build s octets lines (t, stateOf sextets) ((decodeLines sextets lines).behind out)
      (decodeCalls build lines (t, stateOf sextets)) := by
  induction lines generalizing sextets out t with
  | nil =>
    rw [decodeLines, LineResult.behind, List.append_nil]
    exact .pending (by simp) h
  | cons line lines ih =>
    have hline : Decodes build s octets
        ((decodeText sextets (line.dropWhile isBlank)).behind out)
        (ptlsBase64Decode line build (t, stateOf sextets)) := decodeLoop_decodes hq h _
    simp only [decodeLines, decodeCalls]
    have hrunsOut {u : Store} {st : DecodeState} (hrun : ptlsBase64Decode line build
        (t, stateOf sextets) = (.error (.code Error.noMemory), (u, st))) :
        RunsOut build (line :: lines) (t, stateOf sextets) u :=
      ⟨[], line, lines, st, rfl, hrun⟩
    generalize hrun : ptlsBase64Decode line build (t, stateOf sextets) = outcome at hline hrunsOut
    cases htext : decodeText sextets (line.dropWhile isBlank) with
    | pending out' sextets' =>
      rw [htext] at hline
      cases hline with
      | pending hholds =>
        rw [LineResult.behind_behind]
        refine CallsDecode.cons_ok ?_
        rw [hrun]
        exact ih (isQuantum_of_decodeText hq htext) hholds
      | refused hrefused =>
        refine .refused List.mem_cons_self (hrunsOut rfl) ?_
        rw [LineResult.behind_behind, LineResult.out_behind]
        exact hrefused.mono
    | padded out' ignored =>
      rw [htext] at hline
      cases hline with
      | @padded _ _ u st hholds hstatus =>
        have hover : st.status ≠ .inProgress := by
          rw [hstatus]
          decide
        obtain ⟨hall, hfinal⟩ := decodeCalls_over build u hover lines
        dsimp only
        rw [hfinal]
        exact .padded (by simpa using hall) hholds hstatus
      | refused hrefused => exact .refused List.mem_cons_self (hrunsOut rfl) hrefused
    | garbage out' =>
      rw [htext] at hline
      cases hline with
      | garbage => exact .garbage List.mem_cons_self
      | refused hrefused => exact .refused List.mem_cons_self (hrunsOut rfl) hrefused

/-! ## Runs of digits -/

/-- The octets and the pending sextets after characters of the alphabet. -/
def absorb : List ℕ → Bytes → Bytes × List ℕ
  | sextets, [] => ([], sextets)
  | sextets, c :: cs =>
    if sextets.length = 3 then
      (leadingOctets 3 (sextetValue (sextets ++ [(base64Value c).toNat])) ++ (absorb [] cs).1,
        (absorb [] cs).2)
    else absorb (sextets ++ [(base64Value c).toNat]) cs

/-- Text that starts with characters of the alphabet. -/
theorem decodeText_digits {cs : Bytes} (hcs : ∀ c ∈ cs, IsDigit c) (sextets : List ℕ)
    (rest : Bytes) : decodeText sextets (cs ++ rest) =
      (decodeText (absorb sextets cs).2 rest).behind (absorb sextets cs).1 := by
  induction cs generalizing sextets with
  | nil => exact (LineResult.behind_nil _).symm
  | cons c cs ih =>
    have hrest : ∀ c ∈ cs, IsDigit c := fun c hc => hcs c (List.mem_cons_of_mem _ hc)
    rw [List.cons_append, decodeText, if_pos (hcs c List.mem_cons_self), absorb]
    by_cases hfull : sextets.length = 3
    · rw [if_pos hfull, if_pos hfull, ih hrest, LineResult.behind_behind]
    · rw [if_neg hfull, if_neg hfull, ih hrest]

/-- Characters of the alphabet in two parts. -/
theorem absorb_append (sextets : List ℕ) (first second : Bytes) :
    absorb sextets (first ++ second) =
      ((absorb sextets first).1 ++ (absorb (absorb sextets first).2 second).1,
        (absorb (absorb sextets first).2 second).2) := by
  induction first generalizing sextets with
  | nil => rfl
  | cons c cs ih =>
    rw [List.cons_append, absorb, absorb]
    by_cases hfull : sextets.length = 3
    · rw [if_pos hfull, if_pos hfull, ih, List.append_assoc]
    · rw [if_neg hfull, if_neg hfull, ih]

/-- Every fourth character completes a quantum. -/
theorem absorb_length (hq : sextets.length ≤ 3) (cs : Bytes) :
    (absorb sextets cs).2.length = (sextets.length + cs.length) % 4 := by
  induction cs generalizing sextets with
  | nil =>
    rw [absorb, List.length_nil, Nat.add_zero, Nat.mod_eq_of_lt (by omega)]
  | cons c cs ih =>
    rw [absorb, List.length_cons]
    by_cases hfull : sextets.length = 3
    · rw [if_pos hfull, ih (by decide), List.length_nil]
      omega
    · rw [if_neg hfull, ih (by simp; omega)]
      simp only [List.length_append, List.length_singleton]
      congr 1
      omega

theorem isFinalBlank_eq_false (c : UInt8) : IsDigit c ∨ c = padSign → isFinalBlank c = false := by
  revert c
  apply forall_octet
  decide +kernel

/-- Blanks at the end of a line do not matter. -/
theorem decodeText_blanks {blanks : Bytes} (hblanks : ∀ c ∈ blanks, isFinalBlank c)
    (sextets : List ℕ) : decodeText sextets blanks = .pending [] sextets := by
  cases blanks with
  | nil => rfl
  | cons c rest =>
    obtain ⟨hdigit, hpad⟩ : ¬ IsDigit c ∧ c ≠ padSign := by
      have hc : ¬ (IsDigit c ∨ c = padSign) := fun h =>
        Bool.eq_false_iff.mp (isFinalBlank_eq_false c h) (hblanks c List.mem_cons_self)
      exact not_or.mp hc
    rw [decodeText, if_neg hdigit, if_neg (fun h => hpad h.2.1), if_neg (fun h => hpad h.2),
      if_pos (List.dropWhile_eq_nil_iff.mpr hblanks)]

/-! ## How much is decoded -/

/-- The sextets that are left for later. -/
def LineResult.left : LineResult → ℕ
  | .pending _ sextets => sextets.length
  | _ => 0

@[simp] theorem LineResult.left_behind (before : Bytes) (result : LineResult) :
    (result.behind before).left = result.left := by
  cases result <;> rfl

/-- Four characters give at most three octets. -/
theorem decodeText_out_length (sextets : List ℕ) (text : Bytes) :
    4 * (decodeText sextets text).out.length + 3 * (decodeText sextets text).left ≤
      3 * (sextets.length + text.length) := by
  induction text generalizing sextets with
  | nil => simp [decodeText, LineResult.out, LineResult.left]
  | cons c rest ih =>
    rw [decodeText, List.length_cons]
    by_cases hc : IsDigit c
    · rw [if_pos hc]
      by_cases hfull : sextets.length = 3
      · have hrest := ih []
        rw [List.length_nil] at hrest
        rw [if_pos hfull, LineResult.out_behind, LineResult.left_behind, List.length_append,
          leadingOctets_length]
        omega
      · have hrest := ih (sextets ++ [(base64Value c).toNat])
        rw [List.length_append, List.length_singleton] at hrest
        rw [if_neg hfull]
        omega
    · rw [if_neg hc]
      split
      case isTrue htwo =>
        simp only [LineResult.out, LineResult.left, leadingOctets_length]
        omega
      split
      case isTrue hthree =>
        simp only [LineResult.out, LineResult.left, leadingOctets_length]
        omega
      split
      · simp only [LineResult.out, LineResult.left, List.length_nil]
        omega
      · simp [LineResult.out, LineResult.left]

/-- Lines give no more octets than they have characters. -/
theorem decodeLines_out_length (sextets : List ℕ) (lines : List Bytes) :
    4 * (decodeLines sextets lines).out.length + 3 * (decodeLines sextets lines).left ≤
      3 * (sextets.length + lines.flatten.length) := by
  induction lines generalizing sextets with
  | nil => simp [decodeLines, LineResult.out, LineResult.left]
  | cons line lines ih =>
    have hline := decodeText_out_length sextets (line.dropWhile isBlank)
    have hskip : (line.dropWhile isBlank).length ≤ line.length :=
      List.length_dropWhile_le isBlank line
    rw [decodeLines, List.flatten_cons, List.length_append]
    cases htext : decodeText sextets (line.dropWhile isBlank) with
    | pending out sextets' =>
      have hrest := ih sextets'
      rw [htext] at hline
      simp only [LineResult.out, LineResult.left] at hline
      dsimp only
      rw [LineResult.out_behind, LineResult.left_behind, List.length_append]
      omega
    | padded out ignored =>
      rw [htext] at hline
      simp only [LineResult.out, LineResult.left] at hline ⊢
      omega
    | garbage out =>
      rw [htext] at hline
      simp only [LineResult.out, LineResult.left] at hline ⊢
      omega

end Picotls.Pem
