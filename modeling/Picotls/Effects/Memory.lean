import Picotls.Effects.KeySchedule
import Picotls.Record

/-!
# Runs that fail only for lack of memory

What a procedure returns with is stated here together with the one reason for which it does not
return: an allocation that failed.
-/

namespace Picotls

open Foundation Procedure

variable {α : Type} {env : Environment} {s : Session}

/-- The failure of a run that lacks memory. -/
def LacksMemory (env : Environment) (fault : Fault) : Prop :=
  fault = .code Error.noMemory ∧ ∃ tick, env.alloc tick = false

theorem allocate_ends :
    Ends (LacksMemory env) (fun _ t => t = { s with tick := s.tick + 1 }) (allocate env s) := by
  rw [allocate_run]
  cases halloc : env.alloc s.tick with
  | false => exact ⟨rfl, s.tick, halloc⟩
  | true => rfl

theorem bufferPushv_ends (octets : Bytes) :
    Ends (LacksMemory env) (fun _ t => t.tls = s.tls ∧ t.sendbuf = s.sendbuf ++ octets)
      (bufferPushv octets env s) := by
  rw [bufferPushv]
  split_ifs with hempty
  · rw [hempty, List.append_nil]
    exact ⟨rfl, rfl⟩
  · refine allocate_ends.bind fun _ t ht => ?_
    subst ht
    exact ⟨rfl, rfl⟩

theorem bufferPushUInt_ends (width number : ℕ) :
    Ends (LacksMemory env) (fun _ t => t.tls = s.tls ∧ t.sendbuf = s.sendbuf ++ toBE width number)
      (bufferPushUInt width number env s) :=
  bufferPushv_ends _

/-- A block whose contents fit is appended. -/
theorem bufferPushBlock_ends {capacity : ℕ} {block : Proc α}
    (hblock : ∀ u : Session, u.tls = s.tls → Ends (LacksMemory env)
      (fun _ t => t.tls = s.tls ∧ t.sendbuf.length < u.sendbuf.length + 256 ^ capacity)
      (block env u)) :
    Ends (LacksMemory env) (fun _ t => t.tls = s.tls) (bufferPushBlock capacity block env s) := by
  rw [bufferPushBlock]
  refine (bufferPushv_ends (zeros capacity)).bind fun _ u hu => ?_
  rw [sendbufOff, observe_bind]
  refine (hblock u hu.1).bind fun a t ht => ?_
  have hpos : 0 < 256 ^ capacity := Nat.pow_pos (by decide)
  rw [observe_bind, throwIf_bind_of_not (by omega)]
  exact ht.1

variable [Crypto]

omit [Crypto] in
theorem Label.text_length (label : Label) : label.text.length ≤ 64 := by
  cases label <;> decide

/-- A context that fits into its block is expanded. -/
theorem hkdfExpandLabel_ends {algo : HashAlgorithm} {outlen : ℕ} {secret context : Bytes}
    {label : Label} (hcontext : context.length < 256) :
    Ends (LacksMemory env)
      (fun output t => t.tls = s.tls ∧ t.sendbuf = s.sendbuf ∧ output.length = outlen)
      (hkdfExpandLabel algo outlen secret label context none env s) := by
  rw [hkdfExpandLabel]
  refine allocate_ends.bind fun _ t ht => ?_
  have hlabel : ¬ 256 ≤ ((Option.getD none hkdfExpandLabelPrefix) ++ label.text).length := by
    have htext := label.text_length
    have hlength : hkdfExpandLabelPrefix.length = 6 := by decide
    rw [Option.getD_none, List.length_append, hlength]
    omega
  rw [throwIf_bind_of_not hlabel, throwIf_bind_of_not (by omega), emitEvent_bind]
  subst ht
  exact ⟨rfl, rfl, hkdfExpandLabelDigest_length _ _ _ _ _ _⟩

omit [Crypto] in
/-- The first transcript hash of a connection with a key schedule. -/
theorem firstHash_run {algo : HashAlgorithm} (halgo : s.tls.firstAlgo = some algo) :
    ∃ slot sched, firstHash env s = (.ok slot, s) ∧ slot.algo = algo ∧
      s.tls.keySchedule = some sched := by
  obtain ⟨sched, hsched, hhead⟩ := Option.bind_eq_some_iff.mp halgo
  obtain ⟨slot, hslot, rfl⟩ := Option.map_eq_some_iff.mp hhead
  exact ⟨slot, sched, firstHash_eq_ok.mpr ⟨sched, hsched, hslot, rfl⟩, rfl, hsched⟩

/-- A secret over the transcript is derived. -/
theorem deriveSecret_ends {algo : HashAlgorithm} (label : Label)
    (halgo : s.tls.firstAlgo = some algo) :
    Ends (LacksMemory env)
      (fun output t => t.tls = s.tls ∧ t.sendbuf = s.sendbuf ∧ output.length = algo.digestSize)
      (deriveSecret label env s) := by
  obtain ⟨slot, sched, hslot, rfl, hsched⟩ := firstHash_run halgo
  have hdigest : (Crypto.hash slot.algo slot.ctx).length < 256 := by
    rw [Crypto.hash_length]
    exact Nat.lt_of_le_of_lt slot.algo.digestSize_le (by decide)
  rw [deriveSecret, bind_of_ok hslot, deriveSecretWithHash, bind_of_ok hslot, getKeySchedule,
    Procedure.bind_assoc, getTls_bind, hsched, deref_some_bind]
  exact hkdfExpandLabel_ends hdigest

/-- The key of a ticket is derived. -/
theorem deriveResumptionSecret_ends {algo : HashAlgorithm} {nonce : Bytes}
    (halgo : s.tls.firstAlgo = some algo) (hnonce : nonce.length < 256) :
    Ends (LacksMemory env)
      (fun output t => t.tls = s.tls ∧ t.sendbuf = s.sendbuf ∧ output.length = algo.digestSize)
      (deriveResumptionSecret nonce env s) := by
  obtain ⟨slot, sched, hslot, rfl, -⟩ := firstHash_run halgo
  rw [deriveResumptionSecret, bind_of_ok hslot]
  refine (deriveSecret_ends .resumptionMaster halgo).bind fun master t ht => ?_
  refine (hkdfExpandLabel_ends hnonce).mono (fun _ => id) fun output u hu => ?_
  exact ⟨hu.1.trans ht.1, hu.2.1.trans ht.2.1, hu.2.2⟩

end Picotls
