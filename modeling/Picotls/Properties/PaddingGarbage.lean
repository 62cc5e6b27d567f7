import Picotls.Properties.Base64Lines
import Picotls.Properties.PemLoading

/-!
# Text behind the padding

A padding group ends an encoding. The loop that is to find out whether only blanks stand behind it
passes over all characters of the line alike, and later lines are not looked at once the decoding is
done, so everything behind a padding group is accepted. Anywhere else a character that does not
belong to the text is refused.
-/

namespace Picotls.Pem

open Foundation Procedure Buffers

variable {chars ignored label lead line pad text : Bytes} {lines : List Bytes} {sextets : List ℕ}
  {count : ℕ}

/-! ## The shape of text -/

/-- The characters that are not blanks. -/
def nonBlank (text : Bytes) : Bytes := text.filter fun c => !isFinalBlank c

/-- The beginning of an encoding: characters of the alphabet, and at most a padding group that
completes their last quantum. -/
def IsBase64Prefix (text : Bytes) : Prop :=
  ∃ chars pad, text = chars ++ pad ∧ (∀ c ∈ chars, IsDigit c) ∧
    (pad = [] ∨ IsPadding (chars.length % 4) pad)

/-- A line with characters of the alphabet between blanks. -/
structure IsOpenLine (line chars : Bytes) : Prop where
  digits : ∀ c ∈ chars, IsDigit c
  shape : ∃ lead trail, line = lead ++ (chars ++ trail) ∧ (∀ c ∈ lead, isBlank c) ∧
    ∀ c ∈ trail, isFinalBlank c

/-- Behind a number of characters the lines have more of them and then a padding group, with other
text behind it. -/
inductive EndsWithPadding : ℕ → List Bytes → Bytes → Bytes → Bytes → Prop
  | here {count : ℕ} {lead chars pad rest : Bytes} {lines : List Bytes}
      (blanks : ∀ c ∈ lead, isBlank c) (digits : ∀ c ∈ chars, IsDigit c)
      (padding : IsPadding ((count + chars.length) % 4) pad) :
      EndsWithPadding count ((lead ++ (chars ++ (pad ++ rest))) :: lines) chars pad
        (rest ++ lines.flatten)
  | later {count : ℕ} {line first chars pad ignored : Bytes} {lines : List Bytes}
      (isOpen : IsOpenLine line first)
      (ends : EndsWithPadding ((count + first.length) % 4) lines chars pad ignored) :
      EndsWithPadding count (line :: lines) (first ++ chars) pad ignored

/-- Lines with something that is not a blank behind a padding group; what is encoded in front of it
fits into an address space. -/
def GarbageBehindPadding (lines : List Bytes) : Prop :=
  ∃ chars pad ignored, EndsWithPadding 0 lines chars pad ignored ∧
    chars.length * 3 / 4 ≤ sizeMax ∧ nonBlank ignored ≠ []

theorem IsPadding.unique {count : ℕ} {pad other : Bytes} (h : IsPadding count pad)
    (hother : IsPadding count other) : pad = other := by
  rcases h with ⟨hcount, rfl⟩ | ⟨hcount, rfl⟩ <;> rcases hother with ⟨hother, rfl⟩ | ⟨hother, rfl⟩
  all_goals first | rfl | omega

/-- The characters of the alphabet end at a padding group. -/
theorem IsPadding.takeWhile_eq (h : IsPadding count pad) (hchars : ∀ c ∈ chars, IsDigit c)
    (rest : Bytes) : (chars ++ (pad ++ rest)).takeWhile (fun c => decide (IsDigit c)) = chars := by
  rw [List.takeWhile_append_of_pos (by simpa using hchars)]
  rcases h with ⟨-, rfl⟩ | ⟨-, rfl⟩ <;> simp [padSign_not_isDigit]

theorem nonBlank_append (first second : Bytes) :
    nonBlank (first ++ second) = nonBlank first ++ nonBlank second := List.filter_append ..

theorem nonBlank_of_blanks (h : ∀ c ∈ text, isFinalBlank c) : nonBlank text = [] := by
  simpa [nonBlank] using h

theorem nonBlank_of_text (h : ∀ c ∈ text, IsDigit c ∨ c = padSign) : nonBlank text = text :=
  List.filter_eq_self.mpr fun c hc => by simp [isFinalBlank_eq_false c (h c hc)]

theorem nonBlank_lead (h : ∀ c ∈ lead, isBlank c) : nonBlank lead = [] :=
  nonBlank_of_blanks fun c hc => isFinalBlank_of_isBlank (h c hc)

theorem IsOpenLine.nonBlank_eq (h : IsOpenLine line chars) : nonBlank line = chars := by
  obtain ⟨lead, trail, rfl, hlead, htrail⟩ := h.shape
  rw [nonBlank_append, nonBlank_append, nonBlank_lead hlead, nonBlank_of_blanks htrail,
    nonBlank_of_text fun c hc => .inl (h.digits c hc), List.nil_append, List.append_nil]

namespace EndsWithPadding

section

variable (h : EndsWithPadding count lines chars pad ignored)

include h

theorem digits : ∀ c ∈ chars, IsDigit c := by
  induction h with
  | here _ hdigits _ => exact hdigits
  | later hopen _ ih =>
    intro c hc
    exact (List.mem_append.mp hc).elim (hopen.digits c) (ih c)

theorem padding : IsPadding ((count + chars.length) % 4) pad := by
  induction h with
  | here _ _ hpadding => exact hpadding
  | later _ _ ih =>
    rw [List.length_append, ← Nat.add_assoc]
    rwa [Nat.mod_add_mod] at ih

/-- The characters in their order. -/
theorem nonBlank_eq : nonBlank lines.flatten = chars ++ (pad ++ nonBlank ignored) := by
  induction h with
  | here hlead hdigits hpadding =>
    rw [List.flatten_cons]
    simp only [nonBlank_append, nonBlank_lead hlead,
      nonBlank_of_text fun c hc => .inl (hdigits c hc),
      nonBlank_of_text fun c hc => .inr (hpadding.eq_padSign hc), List.nil_append,
      List.append_assoc]
  | later hopen _ ih =>
    rw [List.flatten_cons, nonBlank_append, hopen.nonBlank_eq, ih, List.append_assoc]

/-- More lines do not matter. -/
theorem append (more : List Bytes) :
    EndsWithPadding count (lines ++ more) chars pad (ignored ++ more.flatten) := by
  induction h with
  | here hlead hdigits hpadding =>
    rw [List.append_assoc, ← List.flatten_append]
    exact .here hlead hdigits hpadding
  | later hopen _ ih => exact .later hopen ih

/-- The encoding has no more characters than the lines. -/
theorem length_le : chars.length ≤ lines.flatten.length := by
  have hfilter : (nonBlank lines.flatten).length ≤ lines.flatten.length := List.length_filter_le ..
  rw [h.nonBlank_eq, List.length_append] at hfilter
  omega

end

/-- Text with something behind a padding group is not the beginning of an encoding. -/
theorem not_isBase64Prefix (h : EndsWithPadding 0 lines chars pad ignored)
    (hgarbage : nonBlank ignored ≠ []) : ¬ IsBase64Prefix (nonBlank lines.flatten) := by
  rintro ⟨chars', pad', htext, hdigits', hpad'⟩
  have hpadding := h.padding
  rw [Nat.zero_add] at hpadding
  rw [h.nonBlank_eq] at htext
  have hfirst := hpadding.takeWhile_eq h.digits (nonBlank ignored)
  rcases hpad' with rfl | hpad'
  · -- without a group all of the text would be of the alphabet
    rw [htext, List.append_nil, List.takeWhile_eq_self_iff.mpr (by simpa using hdigits')] at hfirst
    rw [hfirst, List.append_nil] at htext
    have hempty := List.append_right_eq_self.mp htext
    exact hgarbage (List.append_eq_nil_iff.mp hempty).2
  · have hsame := hpad'.takeWhile_eq hdigits' []
    rw [List.append_nil, ← htext, hfirst] at hsame
    subst hsame
    have hgroup := List.append_cancel_left htext
    rw [← hpadding.unique hpad'] at hgroup
    exact hgarbage (List.append_right_eq_self.mp hgroup)

end EndsWithPadding

/-! ## What is decoded -/

/-- Three octets for every quantum that is complete. -/
theorem absorb_out_length (hq : sextets.length ≤ 3) (cs : Bytes) :
    (absorb sextets cs).1.length = 3 * ((sextets.length + cs.length) / 4) := by
  induction cs generalizing sextets with
  | nil =>
    rw [absorb, List.length_nil, Nat.add_zero, Nat.div_eq_of_lt (by omega)]
  | cons c cs ih =>
    rw [absorb, List.length_cons]
    by_cases hfull : sextets.length = 3
    · rw [if_pos hfull, List.length_append, leadingOctets_length, ih (by decide), List.length_nil]
      omega
    · rw [if_neg hfull, ih (by simp; omega), List.length_append, List.length_singleton]
      congr 2
      omega

/-- The octets that characters of the alphabet give with a padding group behind them. -/
def octetsBefore (sextets : List ℕ) (chars : Bytes) : Bytes :=
  (absorb sextets chars).1 ++ paddedOctets (absorb sextets chars).2

theorem octetsBefore_length (hpad : IsPadding (chars.length % 4) pad) :
    (octetsBefore [] chars).length = chars.length * 3 / 4 := by
  rw [octetsBefore, List.length_append, absorb_out_length (by decide), paddedOctets,
    leadingOctets_length, absorb_length (by decide), List.length_nil, Nat.zero_add]
  rcases hpad with ⟨h, -⟩ | ⟨h, -⟩ <;> omega

theorem octetsBefore_append (sextets : List ℕ) (first chars : Bytes) :
    octetsBefore sextets (first ++ chars) =
      (absorb sextets first).1 ++ octetsBefore (absorb sextets first).2 chars := by
  rw [octetsBefore, absorb_append, octetsBefore, List.append_assoc]

/-- How a line can go on behind its characters of the alphabet. -/
theorem decodeText_cases (hq : sextets.length ≤ 3) (text : Bytes) :
    (∃ chars trail, text = chars ++ trail ∧ (∀ c ∈ chars, IsDigit c) ∧
      (∀ c ∈ trail, isFinalBlank c) ∧
      decodeText sextets text = .pending (absorb sextets chars).1 (absorb sextets chars).2) ∨
    (∃ chars pad ignored, text = chars ++ (pad ++ ignored) ∧ (∀ c ∈ chars, IsDigit c) ∧
      IsPadding ((sextets.length + chars.length) % 4) pad ∧
      decodeText sextets text = .padded (octetsBefore sextets chars) ignored) ∨
    ∃ out, decodeText sextets text = .garbage out := by
  let chars := text.takeWhile fun c => decide (IsDigit c)
  have hchars : ∀ c ∈ chars, IsDigit c := fun c hc => by simpa using List.mem_takeWhile_imp hc
  have hsplit : text = chars ++ text.dropWhile fun c => decide (IsDigit c) :=
    List.takeWhile_append_dropWhile.symm
  have hlength := absorb_length hq chars
  have hdecode := decodeText_digits hchars sextets (text.dropWhile fun c => decide (IsDigit c))
  rw [← hsplit] at hdecode
  cases hrest : text.dropWhile fun c => decide (IsDigit c) with
  | nil =>
    refine .inl ⟨chars, [], hrest ▸ hsplit, hchars, by simp, ?_⟩
    rw [hdecode, hrest, decodeText, LineResult.behind, List.append_nil]
  | cons c rest =>
    have hc : ¬ IsDigit c := by
      have hhead := List.head_dropWhile_not (fun c => decide (IsDigit c)) (l := text)
        (by simp [hrest])
      simpa [hrest] using hhead
    rw [hrest] at hsplit hdecode
    rw [decodeText, if_neg hc, hlength] at hdecode
    split at hdecode
    case isTrue htwo =>
      obtain ⟨htwo, rfl, hsign⟩ := htwo
      obtain ⟨more, rfl⟩ : ∃ more, rest = padSign :: more := by
        cases rest with
        | nil => cases hsign
        | cons d more =>
          cases hsign
          exact ⟨more, rfl⟩
      refine .inr (.inl ⟨chars, [padSign, padSign], more, hsplit, hchars, .inl ⟨htwo, rfl⟩, ?_⟩)
      rw [hdecode, octetsBefore, paddedOctets, hlength, htwo]
      rfl
    split at hdecode
    case isTrue hthree =>
      obtain ⟨hthree, rfl⟩ := hthree
      refine .inr (.inl ⟨chars, [padSign], rest, hsplit, hchars, .inr ⟨hthree, rfl⟩, ?_⟩)
      rw [hdecode, octetsBefore, paddedOctets, hlength, hthree, Nat.pow_one]
      rfl
    split at hdecode
    case isTrue hblank =>
      refine .inl ⟨chars, c :: rest, hsplit, hchars, List.dropWhile_eq_nil_iff.mp hblank, ?_⟩
      rw [hdecode, LineResult.behind, List.append_nil]
    · exact .inr (.inr ⟨_, hdecode⟩)

/-- Blanks in front of a character that is none are skipped. -/
theorem dropWhile_lead (hlead : ∀ c ∈ lead, isBlank c)
    (hchars : ∀ c ∈ chars, IsDigit c ∨ c = padSign) (hne : chars ≠ []) (rest : Bytes) :
    (lead ++ (chars ++ rest)).dropWhile isBlank = chars ++ rest := by
  rw [List.dropWhile_append_of_pos hlead]
  cases chars with
  | nil => exact absurd rfl hne
  | cons c chars =>
    rw [List.cons_append, List.dropWhile_cons_of_neg]
    simp [isBlank_eq_false (hchars c List.mem_cons_self)]

/-- A line with characters of the alphabet between blanks. -/
theorem IsOpenLine.decodeText_eq (h : IsOpenLine line chars) (sextets : List ℕ) :
    decodeText sextets (line.dropWhile isBlank) =
      .pending (absorb sextets chars).1 (absorb sextets chars).2 := by
  obtain ⟨lead, trail, rfl, hlead, htrail⟩ := h.shape
  by_cases hempty : chars = []
  · subst hempty
    rw [List.dropWhile_append_of_pos hlead, List.nil_append, absorb]
    exact decodeText_blanks (fun c hc => htrail c ((List.dropWhile_sublist _).subset hc)) sextets
  · rw [dropWhile_lead hlead (fun c hc => .inl (h.digits c hc)) hempty, decodeText_digits h.digits,
      decodeText_blanks htrail, LineResult.behind, List.append_nil]

/-- Lines are decoded up to the padding group. -/
theorem EndsWithPadding.decodeLines_eq (h : EndsWithPadding count lines chars pad ignored)
    (hcount : sextets.length = count) (hq : count ≤ 3) :
    decodeLines sextets lines = .padded (octetsBefore sextets chars) ignored := by
  induction h generalizing sextets with
  | @here count lead chars pad rest lines hlead hdigits hpadding =>
    have hpad : IsPadding (absorb sextets chars).2.length pad := by
      rwa [absorb_length (by omega), hcount]
    have hne : chars ++ pad ≠ [] := by
      rcases hpad with ⟨-, rfl⟩ | ⟨-, rfl⟩ <;> simp
    have htext : ∀ c ∈ chars ++ pad, IsDigit c ∨ c = padSign := fun c hc =>
      (List.mem_append.mp hc).imp (hdigits c) hpad.eq_padSign
    rw [← List.append_assoc chars, decodeLines, dropWhile_lead hlead htext hne, List.append_assoc,
      decodeText_digits hdigits, decodeText_padding hpad]
    rfl
  | later hopen _ ih =>
    rw [decodeLines, hopen.decodeText_eq, octetsBefore_append]
    dsimp only
    rw [ih (by rw [absorb_length (by omega), hcount]) (by omega)]
    rfl

/-- How lines can be decoded. -/
theorem decodeLines_cases (hq : sextets.length ≤ 3) (lines : List Bytes) :
    (∃ out left, decodeLines sextets lines = .pending out left ∧
      ∀ c ∈ nonBlank lines.flatten, IsDigit c) ∨
    (∃ chars pad ignored, EndsWithPadding sextets.length lines chars pad ignored) ∨
    ∃ out, decodeLines sextets lines = .garbage out := by
  induction lines generalizing sextets with
  | nil => exact .inl ⟨[], sextets, rfl, by simp [nonBlank]⟩
  | cons line lines ih =>
    have hline : line = line.takeWhile isBlank ++ line.dropWhile isBlank :=
      List.takeWhile_append_dropWhile.symm
    have hlead : ∀ c ∈ line.takeWhile isBlank, isBlank c := fun c => List.mem_takeWhile_imp
    rw [decodeLines]
    rcases decodeText_cases hq (line.dropWhile isBlank) with
      ⟨chars, trail, htext, hdigits, htrail, hdecode⟩ |
      ⟨chars, pad, ignored, htext, hdigits, hpad, hdecode⟩ | ⟨out, hdecode⟩
    · have hopen : IsOpenLine line chars := ⟨hdigits, _, trail, htext ▸ hline, hlead, htrail⟩
      have hlength := absorb_length hq chars
      rw [hdecode]
      rcases ih (hlength ▸ by omega : (absorb sextets chars).2.length ≤ 3) with
        ⟨out, left, hrest, hall⟩ | ⟨more, pad, ignored, hends⟩ | ⟨out, hrest⟩
      · refine .inl ⟨_, left, by dsimp only; rw [hrest]; rfl, ?_⟩
        rw [List.flatten_cons, nonBlank_append, hopen.nonBlank_eq]
        exact fun c hc => (List.mem_append.mp hc).elim (hdigits c) (hall c)
      · rw [hlength] at hends
        exact .inr (.inl ⟨chars ++ more, pad, ignored, .later hopen hends⟩)
      · exact .inr (.inr ⟨_, by dsimp only; rw [hrest]; rfl⟩)
    · refine .inr (.inl ⟨chars, pad, ignored ++ lines.flatten, ?_⟩)
      rw [hline, htext]
      exact .here hlead hdigits hpad
    · exact .inr (.inr ⟨out, by rw [hdecode]⟩)

/-! ## Sequences of calls -/

/-- If all calls for the lines return zero, their text is the beginning of an encoding. -/
def RejectsGarbage (lines : List Bytes) : Prop :=
  ∀ (build : Build) (s : Store) (octets : Bytes), IsSound octets s →
    (∀ r ∈ (decodeCalls build lines (s, ptlsBase64DecodeInit)).1, r = .ok ()) →
    IsBase64Prefix (nonBlank lines.flatten)

/-- A buffer of a given size in memory that is otherwise unused. -/
def roomyStore (size : ℕ) : Store :=
  ⟨⟨fun _ => 0, [⟨1, size, false⟩], 0, List.pairwise_singleton _ _⟩, ptlsBufferInit 1 size true⟩

theorem roomyStore_isSound {size : ℕ} (hsize : size ≤ sizeMax) : IsSound [] (roomyStore size) := by
  refine ptlsBufferInit_isSound true (by decide) ?_ List.mem_cons_self
  have hlimit : addressLimit = sizeMax + 1 := by decide
  omega

/-- Text behind padding is the beginning of an encoding only if it is all blanks. -/
theorem EndsWithPadding.isBase64Prefix (h : EndsWithPadding 0 lines chars pad ignored)
    (hblank : nonBlank ignored = []) : IsBase64Prefix (nonBlank lines.flatten) := by
  have hpadding := h.padding
  rw [Nat.zero_add] at hpadding
  refine ⟨chars, pad, ?_, h.digits, .inr hpadding⟩
  rw [h.nonBlank_eq, hblank, List.append_nil]

/-- The octets in front of a padding group. -/
theorem EndsWithPadding.octets_length (h : EndsWithPadding 0 lines chars pad ignored) :
    (octetsBefore [] chars).length = chars.length * 3 / 4 := by
  have hpadding := h.padding
  rw [Nat.zero_add] at hpadding
  exact octetsBefore_length hpadding

/-- Calls accept text that does not belong to an encoding exactly behind padding. -/
theorem rejectsGarbage_iff (lines : List Bytes) :
    RejectsGarbage lines ↔ ¬ GarbageBehindPadding lines := by
  constructor
  · rintro hrejects ⟨chars, pad, ignored, hends, hfits, hgarbage⟩
    let build : Build := ⟨fun _ _ _ => none, false, true⟩
    have hsound := roomyStore_isSound hfits
    have hcalls := decodeCalls_decode isQuantum_nil (holds_nil hsound build) lines
    rw [LineResult.behind_nil, stateOf_nil, hends.decodeLines_eq rfl (by decide)] at hcalls
    refine hends.not_isBase64Prefix hgarbage (hrejects build _ [] hsound ?_)
    generalize decodeCalls build lines _ = outcome at hcalls
    cases hcalls with
    | padded hall _ _ => exact hall
    | refused _ _ hrefused =>
      rcases hrefused.exceeds with hdebug | hless
      · cases hdebug
      · rw [LineResult.out, hends.octets_length, List.length_nil, Nat.zero_add] at hless
        exact absurd hless (lt_irrefl _)
  · intro hclean build s octets hs hall
    have hcalls := decodeCalls_decode isQuantum_nil (holds_nil hs build) lines
    rw [LineResult.behind_nil, stateOf_nil] at hcalls
    generalize decodeCalls build lines (s, ptlsBase64DecodeInit) = outcome at hcalls hall
    rcases decodeLines_cases (by decide : ([] : List ℕ).length ≤ 3) lines with
      ⟨out, left, hlines, hdigits⟩ | ⟨chars, pad, ignored, hends⟩ | ⟨out, hlines⟩
    · exact ⟨_, [], (List.append_nil _).symm, hdigits, .inl rfl⟩
    · rw [hends.decodeLines_eq rfl (by decide)] at hcalls
      cases hcalls with
      | padded _ hholds _ =>
        have hfits := hholds.sound.off_eq ▸ hholds.sound.off_le.trans hholds.sound.capacity_le
        rw [List.length_append, hends.octets_length] at hfits
        refine hends.isBase64Prefix (by_contra fun hgarbage => hclean ?_)
        exact ⟨chars, pad, ignored, hends, by omega, hgarbage⟩
      | refused herror => cases hall _ herror
    · rw [hlines] at hcalls
      cases hcalls with
      | garbage herror => cases hall _ herror
      | refused herror => cases hall _ herror

/-! ## Objects -/

/-- If loading the object returns zero, the text that was read between its separator lines is the
beginning of an encoding. -/
def ObjectRejectsGarbage (label content : Bytes) : Prop :=
  ∀ (host : Host) (heap : Heap) (vec : Option (ℕ × ℕ)) (t : Store) (object : List Bytes),
    loadPemObject host label content heap = (.ok (0, vec), t) →
    findBegin label (fileLines content) = some object →
    IsBase64Prefix (nonBlank (objectLines label (readable host.decodeReads object)).flatten)

/-- The file has an object, not larger than an address space, with something that is not a blank
behind a padding group. -/
def GarbageInObject (label content : Bytes) : Prop :=
  ∃ object, findBegin label (fileLines content) = some object ∧
    object.any (endsObject label) = true ∧
    (objectLines label object).flatten.length ≤ sizeMax ∧
    GarbageBehindPadding (objectLines label object)

section Decoding

variable {build : Build} {s t : Store} {ret : ℤ}

/-- What the return code says about the lines of an object. -/
theorem decodeInto_ret (hs : IsSound [] s) (hdebug : build.memoryDebug = false)
    (hroom : (objectLines label lines).flatten.length ≤ s.buf.capacity)
    (hrun : decodeInto label lines build s = (.ok ret, t)) :
    (ret = 0 → ∀ out, decodeLines [] (objectLines label lines) ≠ .garbage out) ∧
    ∀ out ignored, decodeLines [] (objectLines label lines) = .padded out ignored → ret = 0 := by
  have hlength := decodeLines_out_length [] (objectLines label lines)
  have hobject : ObjectDecodes build s [] (lines.any (endsObject label)) _
      (decodeObject label lines build (s, stateOf [])) :=
    decodeObject_decodes isQuantum_nil (holds_nil hs build) lines
  rw [LineResult.behind_nil, stateOf_nil] at hobject
  rw [decodeInto] at hrun
  generalize decodeObject label lines build (s, ptlsBase64DecodeInit) = outcome at hobject hrun
  generalize decodeLines [] (objectLines label lines) = result at hobject hlength
  cases hobject with
  | pending => exact ⟨fun _ _ => by simp, by simp⟩
  | incomplete => exact ⟨fun _ _ => by simp, by simp⟩
  | padded =>
    cases hrun
    exact ⟨fun _ _ => by simp, fun _ _ _ => rfl⟩
  | garbage =>
    cases hrun
    exact ⟨fun hzero => absurd hzero (by decide), by simp⟩
  | refused hrefused =>
    rcases hrefused.exceeds with hmemory | hless
    · rw [hdebug] at hmemory
      cases hmemory
    · rw [List.length_nil] at hless hlength
      omega

/-- The return code is the one of the decoding. -/
theorem finishObject_ret {r : ℤ} {vec : Option (ℕ × ℕ)}
    (hrun : finishObject ret build s = (.ok (r, vec), t)) : r = ret := by
  change (if ret = 0 ∧ 0 < s.buf.off then pure (ret, some (s.buf.base, s.buf.off)) else
    (modifyMemory (fun m => m.write s.buf.base (zeros s.buf.off)) >>= fun _ =>
      free s.buf.base >>= fun _ => pure (ret, none)) : Buffers.Proc _) build s = _ at hrun
  split at hrun
  · cases hrun
    rfl
  · obtain ⟨_, _, -, hrun⟩ := bind_eq_ok.mp hrun
    obtain ⟨_, _, -, hrun⟩ := bind_eq_ok.mp hrun
    cases hrun
    rfl

end Decoding

/-- A system on which every call succeeds and memory is unused. -/
def idleHost : Host := ⟨fun _ _ _ => some 1, true, false, false, false, none, none⟩

/-- Memory without any block in use. -/
def unusedHeap : Heap := ⟨fun _ => 0, [], 0, List.Pairwise.nil⟩

/-- There is memory for every object that is not larger than an address space. -/
theorem ptlsPemBufferInitCapacity_idle {capacity : ℕ} (hcapacity : capacity ≤ sizeMax) :
    ∃ t, ptlsPemBufferInitCapacity capacity idleHost.build ⟨unusedHeap, emptyBuffer⟩ =
      (.ok (), t) := by
  have hsize : (if capacity = 0 then 1 else capacity) ≤ sizeMax := by
    split
    · decide
    · exact hcapacity
  have hlimit : addressLimit = sizeMax + 1 := by decide
  have hgrant : unusedHeap.CanGrant addressLimit (if capacity = 0 then 1 else capacity) 1 1 :=
    ⟨by decide, dvd_refl 1, by omega, by simp [unusedHeap]⟩
  obtain ⟨heap, halloc⟩ := Heap.allocate_of_canGrant
    (rfl : idleHost.build.answer unusedHeap.requests (if capacity = 0 then 1 else capacity) 1 =
      some 1)
    hgrant
  have hmalloc : malloc (if capacity = 0 then 1 else capacity) idleHost.build
      ⟨unusedHeap, emptyBuffer⟩ = (.ok (some 1), ⟨heap, emptyBuffer⟩) := by
    rw [malloc, allocateBlock, halloc]
  rw [ptlsPemBufferInitCapacity, bind_of_ok hmalloc]
  exact ⟨_, rfl⟩

/-- The first pass over an object that has an end and is not too large. -/
theorem ptlsGetPemObjectCapacity_of_any {before : ℕ} (hany : lines.any (endsObject label) = true)
    (hfits : before + (objectLines label lines).flatten.length ≤ sizeMax) :
    ptlsGetPemObjectCapacity label lines before =
      .ok (before + (objectLines label lines).flatten.length) := by
  induction lines generalizing before with
  | nil => cases hany
  | cons line lines ih =>
    rw [ptlsGetPemObjectCapacity]
    cases hend : endsObject label line with
    | true =>
      rw [objectLines_cons_end hend]
      rfl
    | false =>
      rw [objectLines_cons hend, List.flatten_cons, List.length_append] at hfits ⊢
      rw [List.any_cons, hend, Bool.false_or] at hany
      rw [if_neg (by decide), if_neg (by omega), ih hany (by omega), Nat.add_assoc]

/-- An object with a padding group is loaded, whatever stands behind the group. -/
theorem loadPemObject_padded {content : Bytes} {object : List Bytes}
    (hfound : findBegin label (fileLines content) = some object)
    (hany : object.any (endsObject label) = true)
    (hsize : (objectLines label object).flatten.length ≤ sizeMax)
    (hends : EndsWithPadding 0 (objectLines label object) chars pad ignored) :
    ∃ vec t, loadPemObject idleHost label content unusedHeap = (.ok (0, vec), t) := by
  have hcapacity : ptlsGetPemObjectCapacity label (readable idleHost.sizeReads object) 0 =
      .ok (objectLines label object).flatten.length := by
    have hcount : ptlsGetPemObjectCapacity label object 0 = .ok _ :=
      ptlsGetPemObjectCapacity_of_any hany (by omega)
    rwa [Nat.zero_add] at hcount
  obtain ⟨t, hinit⟩ := ptlsPemBufferInitCapacity_idle hsize
  rw [loadPemObject_eq rfl rfl rfl hfound hcapacity hinit]
  rcases ptlsPemBufferInitCapacity_run idleHost.build ⟨unusedHeap, emptyBuffer⟩
      (objectLines label object).flatten.length with
    ⟨u, hrefused, -, -⟩ | ⟨u, base, hgranted, -, hbuf, hsound, hblocks, -⟩
  · rw [hinit] at hrefused
    cases hrefused
  rw [hinit] at hgranted
  cases hgranted
  have hbase : t.buf.base = base := by rw [hbuf, ptlsBufferInit]
  have hroom : t.buf.capacity = max (objectLines label object).flatten.length 1 := by
    rw [hbuf, ptlsBufferInit]
  have hfits : (objectLines label object).flatten.length ≤ t.buf.capacity :=
    objectLines_fits hroom hcapacity none
  obtain ⟨ret, vec, u, hrun, -⟩ := decodeInto_finishObject hsound
    (rfl : idleHost.build.memoryDebug = false) (by rw [hblocks, hbase, hroom]) hfits
  obtain ⟨code, u', hdecode, hfinish⟩ := bind_eq_ok.mp hrun
  have hcode :=
    (decodeInto_ret hsound rfl hfits hdecode).2 _ _ (hends.decodeLines_eq rfl (by decide))
  rw [finishObject_ret hfinish, hcode] at hrun
  exact ⟨vec, u, hrun⟩

/-- Loading accepts an object with text that does not belong to an encoding exactly behind
padding. -/
theorem objectRejectsGarbage_iff (label content : Bytes) :
    ObjectRejectsGarbage label content ↔ ¬ GarbageInObject label content := by
  constructor
  · rintro hrejects ⟨object, hfound, hany, hsize, chars, pad, ignored, hends, -, hgarbage⟩
    obtain ⟨vec, t, hload⟩ := loadPemObject_padded hfound hany hsize hends
    exact hends.not_isBase64Prefix hgarbage (hrejects idleHost unusedHeap vec t object hload hfound)
  · intro hclean host heap vec t object hload hfound
    have hprepares := loadPemObject_prepares host label content heap
    generalize loadPemObject host label content heap = outcome at hload hprepares
    cases hprepares with
    | unallocated hfailed =>
      cases hload
      exact absurd rfl hfailed
    | refused => cases hload
    | @decodes object' capacity u hfound' hcapacity _ hsize hsound =>
      obtain rfl : object = object' := Option.some.inj (hfound.symm.trans hfound')
      obtain ⟨code, u', hdecode, hfinish⟩ := bind_eq_ok.mp hload
      have haccepted := (decodeInto_ret hsound (rfl : host.build.memoryDebug = false)
        (objectLines_fits hsize hcapacity host.decodeReads) hdecode).1
          (finishObject_ret hfinish).symm
      rcases decodeLines_cases (by decide : ([] : List ℕ).length ≤ 3)
          (objectLines label (readable host.decodeReads object)) with
        ⟨out, left, -, hdigits⟩ | ⟨chars, pad, ignored, hends⟩ | ⟨out, hlines⟩
      · exact ⟨_, [], (List.append_nil _).symm, hdigits, .inl rfl⟩
      · refine hends.isBase64Prefix (by_contra fun hgarbage => hclean ?_)
        obtain ⟨hcount, hmax, hany⟩ := ptlsGetPemObjectCapacity_eq_ok hcapacity (Nat.zero_le _)
        rw [objectLines_of_any hany, Nat.zero_add] at hcount
        obtain ⟨more, hmore⟩ : objectLines label (readable host.decodeReads object) <+:
          objectLines label object := objectLines_readable host.decodeReads object
        have hall := hends.append more
        rw [hmore] at hall
        have hlength := hall.length_le
        refine ⟨object, hfound, ?_, by omega, chars, pad, _, hall, by omega, ?_⟩
        · exact any_of_readable hany
        · rw [nonBlank_append]
          exact fun hnil => hgarbage (List.append_eq_nil_iff.mp hnil).1
      · exact absurd hlines (haccepted out)

/-- The calls for lines, and the loading of an object, accept something else than the beginning of
an encoding exactly if there is something other than blanks behind a padding group. -/
theorem padding_garbage_iff (lines : List Bytes) (label content : Bytes) :
    (RejectsGarbage lines ↔ ¬ GarbageBehindPadding lines) ∧
    (ObjectRejectsGarbage label content ↔ ¬ GarbageInObject label content) :=
  ⟨rejectsGarbage_iff lines, objectRejectsGarbage_iff label content⟩

namespace Sample

/-- One octet with its padding. -/
def paddedLine : Bytes := ['Q', 'Q', '=', '='].map octet

/-- Characters that are not of the alphabet. -/
def strayText : Bytes := ['*', '*'].map octet

end Sample

open Sample

/-- The two stars are accepted, both behind the padding on its line and on the next one. -/
theorem stray_text_accepted :
    (decodeCalls Buffers.Sample.grantingBuild [paddedLine ++ strayText]
      (Buffers.Sample.smallStore, ptlsBase64DecodeInit)).1 = [.ok ()] ∧
    ¬ IsBase64Prefix (nonBlank [paddedLine ++ strayText].flatten) ∧
    (decodeCalls Buffers.Sample.grantingBuild [paddedLine, strayText]
      (Buffers.Sample.smallStore, ptlsBase64DecodeInit)).1 = [.ok (), .ok ()] ∧
    ¬ IsBase64Prefix (nonBlank [paddedLine, strayText].flatten) := by
  have hpad : IsPadding ((0 + 2) % 4) [padSign, padSign] := .inl ⟨rfl, rfl⟩
  have hdigits : ∀ c ∈ ['Q', 'Q'].map octet, IsDigit c := by decide +kernel
  have hsame : EndsWithPadding 0 [paddedLine ++ strayText] (['Q', 'Q'].map octet)
      [padSign, padSign] (strayText ++ [].flatten) :=
    @EndsWithPadding.here 0 [] _ _ _ _ (by simp) hdigits hpad
  have hnext : EndsWithPadding 0 [paddedLine, strayText] (['Q', 'Q'].map octet)
      [padSign, padSign] ([] ++ [strayText].flatten) :=
    @EndsWithPadding.here 0 [] _ _ [] _ (by simp) hdigits hpad
  exact ⟨rfl, hsame.not_isBase64Prefix (by decide), rfl, hnext.not_isBase64Prefix (by decide)⟩

end Picotls.Pem
