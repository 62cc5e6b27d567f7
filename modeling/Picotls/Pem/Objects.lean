import Mathlib.Data.List.Infix
import Picotls.Pem.Loading

/-!
# What loading an object does

The lines of an object are those before the line that ends it. They are decoded as the function on
lines does it; the two passes over the file see the same lines unless reading breaks off, and then
the second one sees the first of them.
-/

namespace Picotls.Pem

open Foundation Procedure Buffers

variable {line : Bytes} {lines : List Bytes} {reads : Option ℕ} {capacity : ℕ}

/-! ## The lines of an object -/

variable {build : Build} {s t : Store} {octets out : Bytes} {label : Bytes}

/-- The strings of the lines before the one that ends the object. -/
def objectLines (label : Bytes) (lines : List Bytes) : List Bytes :=
  (lines.takeWhile fun line => !endsObject label line).map cString

theorem objectLines_cons_end (h : endsObject label line = true) (lines : List Bytes) :
    objectLines label (line :: lines) = [] := by
  simp [objectLines, h]

theorem objectLines_cons (h : endsObject label line = false) (lines : List Bytes) :
    objectLines label (line :: lines) = cString line :: objectLines label lines := by
  simp [objectLines, h]

/-- Reading that breaks off sees the first lines. -/
theorem objectLines_readable (reads : Option ℕ) (lines : List Bytes) :
    objectLines label (readable reads lines) <+: objectLines label lines := by
  cases reads with
  | none => exact List.prefix_refl _
  | some count =>
    rw [readable, objectLines, ← List.take_takeWhile]
    exact (List.take_prefix _ _).map cString

/-- The capacity is the number of characters of the lines of the object. -/
theorem ptlsGetPemObjectCapacity_eq_ok {before : ℕ}
    (h : ptlsGetPemObjectCapacity label lines before = .ok capacity) (hbefore : before ≤ sizeMax) :
    capacity = before + (objectLines label lines).flatten.length ∧ capacity ≤ sizeMax ∧
      lines.any (endsObject label) = true := by
  induction lines generalizing before with
  | nil => cases h
  | cons line lines ih =>
    rw [ptlsGetPemObjectCapacity] at h
    cases hend : endsObject label line with
    | true =>
      rw [if_pos hend] at h
      cases h
      rw [objectLines_cons_end hend]
      exact ⟨rfl, hbefore, by simp [hend]⟩
    | false =>
      rw [if_neg (by simp [hend])] at h
      by_cases hlarge : sizeMax - before < (cString line).length
      · rw [if_pos hlarge] at h
        cases h
      · rw [if_neg hlarge] at h
        obtain ⟨hcapacity, hmax, hany⟩ := ih h (by omega)
        rw [objectLines_cons hend, List.flatten_cons, List.length_append]
        exact ⟨by omega, hmax, by simp [hany]⟩

/-- The line that ends the object was found by the first pass, so both passes have its lines. -/
theorem objectLines_of_any (h : (readable reads lines).any (endsObject label) = true) :
    objectLines label (readable reads lines) = objectLines label lines := by
  cases reads with
  | none => rfl
  | some count =>
    obtain ⟨line, hmem, hend⟩ := List.any_eq_true.mp h
    have hshort : (lines.takeWhile fun line => !endsObject label line).length ≤ count := by
      by_contra hlong
      have htake : (lines.take count).takeWhile (fun line => !endsObject label line) =
          lines.take count := by
        rw [← List.take_takeWhile]
        conv_rhs => rw [← List.takeWhile_append_dropWhile
          (p := fun line => !endsObject label line) (l := lines)]
        rw [List.take_append_of_le_length (by omega)]
      rw [readable, ← htake] at hmem
      simpa [hend] using List.mem_takeWhile_imp hmem
    rw [readable, objectLines, ← List.take_takeWhile, List.take_of_length_le hshort, objectLines]

theorem any_of_readable {p : Bytes → Bool} (h : (readable reads lines).any p = true) :
    lines.any p = true := by
  cases reads with
  | none => exact h
  | some count =>
    obtain ⟨line, hmem, hline⟩ := List.any_eq_true.mp h
    exact List.any_eq_true.mpr ⟨line, List.mem_of_mem_take hmem, hline⟩

/-- The characters that the second pass decodes are among those that the first one has counted. -/
theorem objectLines_length_le {sizeReads : Option ℕ}
    (h : ptlsGetPemObjectCapacity label (readable sizeReads lines) 0 = .ok capacity)
    (decodeReads : Option ℕ) :
    (objectLines label (readable decodeReads lines)).flatten.length ≤ capacity := by
  obtain ⟨hcapacity, -, hany⟩ := ptlsGetPemObjectCapacity_eq_ok h (Nat.zero_le _)
  rw [hcapacity, objectLines_of_any hany, Nat.zero_add]
  exact (List.IsPrefix.flatten (objectLines_readable decodeReads lines)).length_le

/-! ## Decoding an object -/

/-- What the loop over the lines of an object returns and leaves, when they decode so. -/
inductive ObjectDecodes (build : Build) (s : Store) (octets : Bytes) (ended : Bool) :
    LineResult → Except Stop Unit × (Store × DecodeState) → Prop
  | pending {out : Bytes} {sextets : List ℕ} {t : Store} (holds : Holds build s octets out t)
      (complete : ended → sextets = []) :
      ObjectDecodes build s octets ended (.pending out sextets) (.ok (), (t, stateOf sextets))
  | incomplete {out : Bytes} {sextets : List ℕ} {t : Store} (holds : Holds build s octets out t)
      (isEnded : ended) (incomplete : sextets ≠ []) :
      ObjectDecodes build s octets ended (.pending out sextets)
        (.error (.code incorrectBase64), (t, stateOf sextets))
  | padded {out ignored : Bytes} {t : Store} {st : DecodeState}
      (holds : Holds build s octets out t) (status : st.status = .done) :
      ObjectDecodes build s octets ended (.padded out ignored) (.ok (), (t, st))
  | garbage {out : Bytes} {t : Store} {st : DecodeState} (holds : Holds build s octets out t) :
      ObjectDecodes build s octets ended (.garbage out)
        (.error (.code incorrectBase64), (t, st))
  | refused {result : LineResult} {t : Store} {st : DecodeState}
      (refused : Refused build s octets result.out t) :
      ObjectDecodes build s octets ended result (.error (.code Error.noMemory), (t, st))

/-- After the end of the encoding the other lines are not looked at. -/
theorem decodeObject_done {st : DecodeState} (hst : st.status = .done) (lines : List Bytes) :
    decodeObject label lines build (t, st) = (.ok (), (t, st)) := by
  induction lines with
  | nil => rfl
  | cons line lines ih =>
    rw [decodeObject]
    by_cases hend : endsObject label line = true
    · rw [if_pos hend]
      change (if st.status = .done ∨ st.status = .inProgress ∧ st.nbc = 0 then pure () else _ :
        DecodeProc Unit) build (t, st) = _
      rw [if_pos (.inl hst)]
      rfl
    · rw [if_neg hend, bind_of_ok (ptlsBase64Decode_over (by rw [hst]; decide) _), ih]

/-- The loop over the lines decodes as the function on lines does, or memory runs out. -/
theorem decodeObject_decodes {sextets : List ℕ} (hq : IsQuantum sextets)
    (h : Holds build s octets out t) (lines : List Bytes) :
    ObjectDecodes build s octets (lines.any (endsObject label))
      ((decodeLines sextets (objectLines label lines)).behind out)
      (decodeObject label lines build (t, stateOf sextets)) := by
  induction lines generalizing sextets out t with
  | nil =>
    rw [objectLines, List.takeWhile_nil, List.map_nil, decodeLines, LineResult.behind,
      List.append_nil]
    exact .pending h (fun hended => by simp at hended)
  | cons line lines ih =>
    rw [decodeObject]
    cases hend : endsObject label line with
    | true =>
      have hany : (line :: lines).any (endsObject label) = true := by simp [hend]
      rw [if_pos rfl, objectLines_cons_end hend, decodeLines, LineResult.behind, List.append_nil,
        hany]
      change ObjectDecodes build s octets true _ ((if DecodeStatus.inProgress = .done ∨
        DecodeStatus.inProgress = .inProgress ∧ sextets.length = 0 then pure () else _ :
        DecodeProc Unit) build (t, stateOf sextets))
      by_cases hempty : sextets = []
      · subst hempty
        rw [if_pos (.inr ⟨rfl, rfl⟩)]
        exact .pending h fun _ => rfl
      · rw [if_neg (by simp [hempty])]
        exact .incomplete h rfl hempty
    | false =>
      have hany : (line :: lines).any (endsObject label) = lines.any (endsObject label) := by
        simp [hend]
      have hline : Decodes build s octets
          ((decodeText sextets ((cString line).dropWhile isBlank)).behind out)
          (ptlsBase64Decode (cString line) build (t, stateOf sextets)) := decodeLoop_decodes hq h _
      rw [if_neg (by decide), objectLines_cons hend, decodeLines, hany]
      generalize hrun : ptlsBase64Decode (cString line) build (t, stateOf sextets) = outcome
        at hline
      cases htext : decodeText sextets ((cString line).dropWhile isBlank) with
      | pending out' sextets' =>
        rw [htext] at hline
        dsimp only
        rw [LineResult.behind_behind]
        cases hline with
        | pending hholds =>
          rw [bind_of_ok hrun]
          exact ih (isQuantum_of_decodeText hq htext) hholds
        | refused hrefused =>
          rw [bind_of_error hrun]
          refine .refused ?_
          rw [LineResult.out_behind]
          exact hrefused.mono
      | padded out' ignored =>
        rw [htext] at hline
        cases hline with
        | padded hholds hstatus =>
          rw [bind_of_ok hrun, decodeObject_done hstatus]
          exact .padded hholds hstatus
        | refused hrefused =>
          rw [bind_of_error hrun]
          exact .refused hrefused
      | garbage out' =>
        rw [htext] at hline
        cases hline with
        | garbage hholds _ =>
          rw [bind_of_error hrun]
          exact .garbage hholds
        | refused hrefused =>
          rw [bind_of_error hrun]
          exact .refused hrefused

end Picotls.Pem
