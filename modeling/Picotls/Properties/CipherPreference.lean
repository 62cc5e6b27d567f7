import Picotls.Server.FirstFlight
import Picotls.Sample

/-!
# Whose order decides about the cipher suite

`select_cipher` walks the client's list and, for each number in it, the server's candidates, with
several early exits. What it selects does not depend on the walk: without server preference it is
the first offered suite that the server has, with server preference the first candidate that the
client offers, unless the client's list starts with the suite that is given priority.
-/

namespace Picotls

open Foundation

variable {chachaPriority : Bool} {offered : Bytes}

variable {candidates : List CipherSuite} {hash : Option HashAlgorithm} {id : ℕ}

/-! ## The server's selection -/

/-- What the server makes of the result of its loop. -/
def orHandshakeFailure : Option CipherSuite → Except Fault CipherSuite
  | some cs => .ok cs
  | none => .error (.code Alert.handshakeFailure)

theorem foundCandidate_eq (found : Option ℕ) :
    foundCandidate candidates found = orHandshakeFailure (found.bind (candidates[·]?)) := by
  unfold foundCandidate
  cases found.bind (candidates[·]?) <;> rfl

/-! ## What is selected -/

/-- The numbers in the client's list. -/
def suiteNumbers : Bytes → List ℕ
  | high :: low :: rest => ofBE [high, low] :: suiteNumbers rest
  | _ => []

/-- The first candidate with a number, among those with the hash. -/
def candidateFor (candidates : List CipherSuite) (hash : Option HashAlgorithm) (id : ℕ) :
    Option CipherSuite :=
  candidates.find? fun cs => cs.id = id ∧ cs.HasHash hash

/-- The first index with one of two properties is the smaller of the first indices with each. -/
theorem findIdx?_or (p q : CipherSuite → Bool) :
    candidates.findIdx? (fun cs => p cs || q cs) =
      smallerIndex (candidates.findIdx? p) (candidates.findIdx? q) := by
  induction candidates with
  | nil => rfl
  | cons cs rest ih =>
    simp only [List.findIdx?_cons]
    cases hp : p cs with
    | true =>
      rw [smallerIndex_comm]
      exact (smallerIndex_zero _).symm
    | false =>
      cases hq : q cs with
      | true => exact (smallerIndex_zero _).symm
      | false =>
        simp only [Bool.or_self, Bool.false_eq_true, if_false, ih]
        cases rest.findIdx? p <;> cases rest.findIdx? q <;> simp [smallerIndex]

/-- The candidates that occur in a longer list of the client. -/
theorem findIdx?_offered (ids : List ℕ) :
    candidates.findIdx? (fun cs => cs.id ∈ id :: ids ∧ cs.HasHash hash) =
      smallerIndex (candidates.findIdx? fun cs => cs.id = id ∧ cs.HasHash hash)
        (candidates.findIdx? fun cs => cs.id ∈ ids ∧ cs.HasHash hash) := by
  rw [← findIdx?_or]
  congr 1
  funext cs
  rw [← Bool.decide_or]
  simp only [List.mem_cons, or_and_right]

/-- A list of whole numbers in which there is no number is empty. -/
theorem eq_nil_of_even (heven : offered.length % 2 = 0)
    (hshort : ∀ high low rest, offered = high :: low :: rest → False) : offered = [] := by
  rcases offered with _ | ⟨high, _ | ⟨low, rest⟩⟩
  · rfl
  · cases heven
  · exact absurd rfl (hshort high low rest)

/-- Without server preference the client's order decides. -/
theorem selectCipherFrom_first (chachaPriority : Bool) (heven : offered.length % 2 = 0) :
    selectCipherFrom candidates false hash chachaPriority none offered =
      orHandshakeFailure ((suiteNumbers offered).findSome? (candidateFor candidates hash)) := by
  induction offered using suiteNumbers.induct generalizing chachaPriority with
  | case1 high low rest ih =>
    have hrest : rest.length % 2 = 0 := by
      rwa [List.length_cons, List.length_cons, Nat.add_assoc, Nat.add_mod_right] at heven
    rw [selectCipherFrom, suiteNumbers, List.findSome?_cons]
    simp only [Bool.false_eq_true, false_and, decide_false, scanCandidates_first]
    cases hcandidate : candidateFor candidates hash (ofBE [high, low]) with
    | some cs =>
      rw [candidateFor] at hcandidate
      rw [hcandidate]
      rfl
    | none =>
      rw [candidateFor] at hcandidate
      rw [hcandidate]
      exact ih false hrest
  | case2 offered hshort =>
    rw [eq_nil_of_even heven hshort]
    rfl

/-- With server preference the smallest index into the server's list is found. -/
theorem selectCipherFrom_preferred (found : Option ℕ) (heven : offered.length % 2 = 0) :
    selectCipherFrom candidates true hash false found offered =
      foundCandidate candidates (smallerIndex found
        (candidates.findIdx? fun cs => cs.id ∈ suiteNumbers offered ∧ cs.HasHash hash)) := by
  induction offered using suiteNumbers.induct generalizing found with
  | case1 high low rest ih =>
    have hrest : rest.length % 2 = 0 := by
      rwa [List.length_cons, List.length_cons, Nat.add_assoc, Nat.add_mod_right] at heven
    rw [selectCipherFrom, suiteNumbers, findIdx?_offered, ← smallerIndex_assoc,
      smallerIndex_comm found]
    simp only [Bool.false_eq_true, false_and, not_false_eq_true, and_self, decide_true,
      scanCandidates_preferred, Nat.add_zero, Option.map_id']
    generalize smallerIndex (candidates.findIdx? fun cs =>
      cs.id = ofBE [high, low] ∧ cs.HasHash hash) found = next
    by_cases hzero : next = some 0
    · rw [if_pos hzero, hzero, smallerIndex_comm, smallerIndex_zero]
    · rw [if_neg hzero, ih next hrest]
  | case2 offered hshort =>
    have hnone : (candidates.findIdx? fun cs => cs.id ∈ suiteNumbers [] ∧ cs.HasHash hash) =
        none := List.findIdx?_eq_none_iff.mpr fun cs _ => by simp [suiteNumbers]
    rw [eq_nil_of_even heven hshort, selectCipherFrom, hnone, smallerIndex_none_right]

/-- The client's list starts with the suite that is given priority, and the server has it. -/
def TakesPriority (candidates : List CipherSuite) (hash : Option HashAlgorithm)
    (chachaPriority : Bool) (offered : Bytes) : Prop :=
  chachaPriority ∧ (suiteNumbers offered).head? = some cipherSuiteChacha20Poly1305 ∧
    ∃ cs ∈ candidates, cs.id = cipherSuiteChacha20Poly1305 ∧ cs.HasHash hash

/-- The priority has no effect unless its suite is taken. -/
theorem selectCipherFrom_of_not_takesPriority
    (h : ¬ TakesPriority candidates hash chachaPriority offered) :
    selectCipherFrom candidates true hash chachaPriority none offered =
      selectCipherFrom candidates true hash false none offered := by
  match offered with
  | [] => rfl
  | [_] => rfl
  | high :: low :: rest =>
    by_cases hfirst : chachaPriority ∧ ofBE [high, low] = cipherSuiteChacha20Poly1305
    · -- no candidate is the suite with priority, so that neither walk finds anything
      have hnone (cs : CipherSuite) (hcs : cs ∈ candidates) :
          ¬ (cs.id = ofBE [high, low] ∧ cs.HasHash hash) := by
        rintro ⟨hid, hhash⟩
        refine h ⟨hfirst.1, ?_, cs, hcs, hid.trans hfirst.2, hhash⟩
        rw [suiteNumbers, hfirst.2]
        rfl
      have hfind : (candidates.find? fun cs => cs.id = ofBE [high, low] ∧ cs.HasHash hash) = none :=
        List.find?_eq_none.mpr fun cs hcs => by simpa using hnone cs hcs
      have hindex : (candidates.findIdx? fun cs => cs.id = ofBE [high, low] ∧ cs.HasHash hash) =
          none := List.findIdx?_eq_none_iff.mpr fun cs hcs => decide_eq_false (hnone cs hcs)
      rw [selectCipherFrom, selectCipherFrom]
      simp only [hfirst, not_true_eq_false, and_false, and_true, decide_false,
        scanCandidates_first, Bool.false_eq_true, not_false_eq_true, decide_true,
        scanCandidates_preferred, Nat.add_zero, Option.map_id']
      rw [← hfirst.2, hfind, hindex]
      rfl
    · rw [selectCipherFrom, selectCipherFrom]
      simp only [hfirst, Bool.false_eq_true, false_and]

/-- The suite with priority is taken. -/
theorem selectCipherFrom_of_takesPriority {chachaPriority : Bool} {offered : Bytes}
    (h : TakesPriority candidates hash chachaPriority offered) :
    ∃ cs, candidateFor candidates hash cipherSuiteChacha20Poly1305 = some cs ∧
      selectCipherFrom candidates true hash chachaPriority none offered = .ok cs := by
  obtain ⟨hflag, hhead, cs, hmem, hcs⟩ := h
  obtain ⟨found, hfound⟩ : ∃ found,
      candidateFor candidates hash cipherSuiteChacha20Poly1305 = some found := by
    refine Option.isSome_iff_exists.mp (List.find?_isSome.mpr ⟨cs, hmem, ?_⟩)
    exact decide_eq_true hcs
  refine ⟨found, hfound, ?_⟩
  match offered with
  | [] => cases hhead
  | [_] => cases hhead
  | high :: low :: rest =>
    have hfirst : ofBE [high, low] = cipherSuiteChacha20Poly1305 := Option.some.inj hhead
    rw [selectCipherFrom, hfirst]
    simp only [hflag, and_self, not_true_eq_false, and_false, decide_false, scanCandidates_first]
    rw [candidateFor] at hfound
    rw [hfound]

/-- With server preference the first candidate that the client offers is taken, unless the suite
with priority is. -/
theorem selectCipherFrom_find (heven : offered.length % 2 = 0)
    (h : ¬ TakesPriority candidates hash chachaPriority offered) :
    selectCipherFrom candidates true hash chachaPriority none offered =
      orHandshakeFailure (candidates.find? fun cs =>
        cs.id ∈ suiteNumbers offered ∧ cs.HasHash hash) := by
  rw [selectCipherFrom_of_not_takesPriority h, selectCipherFrom_preferred none heven,
    smallerIndex, foundCandidate_eq, ← List.find?_eq_bind_findIdx?_getElem?]

/-- Nothing is selected when no candidate is offered. -/
theorem selectCipherFrom_of_disjoint (serverPreference chachaPriority : Bool)
    (heven : offered.length % 2 = 0)
    (h : ∀ cs ∈ candidates, cs.HasHash hash → cs.id ∉ suiteNumbers offered) :
    selectCipherFrom candidates serverPreference hash chachaPriority none offered =
      .error (.code Alert.handshakeFailure) := by
  cases serverPreference with
  | false =>
    have hnone : (suiteNumbers offered).findSome? (candidateFor candidates hash) = none := by
      refine List.findSome?_eq_none_iff.mpr fun id hid => List.find?_eq_none.mpr fun cs hcs => ?_
      intro hmatch
      obtain ⟨rfl, hhash⟩ := of_decide_eq_true hmatch
      exact h cs hcs hhash hid
    rw [selectCipherFrom_first chachaPriority heven, hnone]
    rfl
  | true =>
    have hpriority : ¬ TakesPriority candidates hash chachaPriority offered := by
      rintro ⟨-, hhead, cs, hcs, hid, hhash⟩
      exact h cs hcs hhash (hid ▸ List.mem_of_mem_head? hhead)
    have hnone : (candidates.find? fun cs => cs.id ∈ suiteNumbers offered ∧ cs.HasHash hash) =
        none := by
      refine List.find?_eq_none.mpr fun cs hcs hmatch => ?_
      obtain ⟨hid, hhash⟩ := of_decide_eq_true hmatch
      exact h cs hcs hhash hid
    rw [selectCipherFrom_find heven hpriority, hnone]
    rfl

/-- What `select_cipher` selects from a list of whole numbers: the first offered number for which
there is a candidate, or with server preference the first candidate that is offered, except that
the suite with priority is taken if it is offered first. -/
theorem selectCipherFrom_chooses {offered : Bytes} (heven : offered.length % 2 = 0)
    (candidates : List CipherSuite) (hash : Option HashAlgorithm) (chachaPriority : Bool) :
    selectCipherFrom candidates false hash chachaPriority none offered =
      orHandshakeFailure ((suiteNumbers offered).findSome? (candidateFor candidates hash)) ∧
    (TakesPriority candidates hash chachaPriority offered →
      ∃ cs, candidateFor candidates hash cipherSuiteChacha20Poly1305 = some cs ∧
        selectCipherFrom candidates true hash chachaPriority none offered = .ok cs) ∧
    (¬ TakesPriority candidates hash chachaPriority offered →
      selectCipherFrom candidates true hash chachaPriority none offered =
        orHandshakeFailure (candidates.find? fun cs =>
          cs.id ∈ suiteNumbers offered ∧ cs.HasHash hash)) ∧
    ((∀ cs ∈ candidates, cs.HasHash hash → cs.id ∉ suiteNumbers offered) →
      ∀ serverPreference,
        selectCipherFrom candidates serverPreference hash chachaPriority none offered =
          .error (.code Alert.handshakeFailure)) :=
  ⟨selectCipherFrom_first chachaPriority heven, selectCipherFrom_of_takesPriority,
    selectCipherFrom_find heven,
    fun hdisjoint preference => selectCipherFrom_of_disjoint preference chachaPriority heven
      hdisjoint⟩

namespace Sample

/-- Two candidates, the second with the number that is given priority. -/
def rankedSuites : List CipherSuite := [suite 0x1301 0, suite 0x1303 1]

end Sample

open Sample

/-- A client that lists both candidates, the one with priority first: it gets that one exactly when
the priority is set, and a client that lists neither gets none. -/
theorem selectCipherFrom_chooses_sample :
    (TakesPriority rankedSuites none true [0x13, 3, 0x13, 1] ∧
      selectCipherFrom rankedSuites true none true none [0x13, 3, 0x13, 1] =
        .ok (suite 0x1303 1)) ∧
    (¬ TakesPriority rankedSuites none false [0x13, 3, 0x13, 1] ∧
      selectCipherFrom rankedSuites true none false none [0x13, 3, 0x13, 1] =
        .ok (suite 0x1301 0)) ∧
    ((∀ cs ∈ rankedSuites, cs.HasHash none → cs.id ∉ suiteNumbers [0x13, 2]) ∧
      selectCipherFrom rankedSuites true none true none [0x13, 2] =
        .error (.code Alert.handshakeFailure)) := by
  have htakes : TakesPriority rankedSuites none true [0x13, 3, 0x13, 1] :=
    ⟨rfl, rfl, suite 0x1303 1, by simp [rankedSuites], rfl, .inl rfl⟩
  have hdoes : ¬ TakesPriority rankedSuites none false [0x13, 3, 0x13, 1] :=
    fun h => Bool.false_ne_true h.1
  have hdisjoint : ∀ cs ∈ rankedSuites,
      cs.HasHash none → cs.id ∉ suiteNumbers [0x13, 2] := by decide
  obtain ⟨-, hpriority, -, -⟩ := @selectCipherFrom_chooses [0x13, 3, 0x13, 1] rfl
    rankedSuites none true
  obtain ⟨-, -, hpreferred, -⟩ := @selectCipherFrom_chooses [0x13, 3, 0x13, 1] rfl
    rankedSuites none false
  obtain ⟨-, -, -, hfails⟩ := @selectCipherFrom_chooses [0x13, 2] rfl
    rankedSuites none true
  obtain ⟨cs, hcs, hselected⟩ := hpriority htakes
  refine ⟨⟨htakes, ?_⟩, ⟨hdoes, hpreferred hdoes⟩, hdisjoint, hfails hdisjoint true⟩
  rw [hselected, ← Option.some.inj hcs]

end Picotls
