import Picotls.Client.Schedule
import Picotls.Effects.Server
import Picotls.Server.HelloMessage

/-!
# The pre-shared key that a server selects

The identities of a hello are tried in turn. The external key is selected by its name alone; a
ticket is selected if it opens, is alive, and belongs to a connection with the same terms. The
binder that goes with an identity is a part of the message.
-/

namespace Picotls

open Foundation Procedure

variable {env : Environment} {s t : Session}

variable {message : Bytes} {identity : PskIdentity} {psk : SelectedPsk} {block rest src : Src}
  {exttype fuel index now : ℕ}

variable {ch : ClientHello}

/-! ## Tickets -/

/-- The parts of a connection that decide which tickets it accepts are the same. -/
structure SameTerms (s t : Session) : Prop where
  ctx : t.tls.ctx = s.tls.ctx
  serverName : t.tls.serverName = s.tls.serverName
  negotiatedProtocol : t.tls.negotiatedProtocol = s.tls.negotiatedProtocol
  cipherSuite : t.tls.cipherSuite = s.tls.cipherSuite
  algos : t.algos = s.algos

/-- The effect leaves the terms of the connection alone. -/
def Effect.KeepsTerms (e : Effect) : Bool :=
  e ≠ .context ∧ e ≠ .names ∧ e ≠ .suite ∧ e ≠ .schedule

/-- Steps that leave the terms of the connection alone. -/
theorem Steps.sameTerms {E : List Effect} (h : Via E s t)
    (hE : ∀ e ∈ E, e.KeepsTerms) : SameTerms s t := by
  have halgos : t.algos = s.algos := by
    refine Steps.algos_eq h fun hmem => ?_
    have hkeeps := hE _ hmem
    simp [Effect.KeepsTerms] at hkeeps
  have hterms := h.preserves (P := fun u => u.tls.ctx = s.tls.ctx ∧
    u.tls.serverName = s.tls.serverName ∧ u.tls.negotiatedProtocol = s.tls.negotiatedProtocol ∧
    u.tls.cipherSuite = s.tls.cipherSuite) (fun e he u v hstep hu => ?_) ⟨rfl, rfl, rfl, rfl⟩
  · exact ⟨hterms.1, hterms.2.1, hterms.2.2.1, hterms.2.2.2, halgos⟩
  · have hkeeps := hE e he
    cases hstep <;> first | exact hu | simp [Effect.KeepsTerms] at hkeeps

theorem SameTerms.trans {u : Session} (h : SameTerms s t) (h' : SameTerms t u) : SameTerms s u :=
  ⟨h'.ctx.trans h.ctx, h'.serverName.trans h.serverName,
    h'.negotiatedProtocol.trans h.negotiatedProtocol, h'.cipherSuite.trans h.cipherSuite,
    h'.algos.trans h.algos⟩

theorem SameTerms.refl (s : Session) : SameTerms s s := ⟨rfl, rfl, rfl, rfl, rfl⟩

/-- The hash that the connection has selected. -/
def Session.selectedHash (s : Session) : Option HashAlgorithm := s.algos.bind List.head?

/-- The hash in use is the one the connection has selected. -/
theorem firstHash_selectedHash {slot : HashSlot} (h : firstHash env s = (.ok slot, t)) :
    s.selectedHash = some slot.algo ∧ t = s := by
  obtain ⟨sched, hsched, hslot, rfl⟩ := firstHash_eq_ok.mp h
  refine ⟨?_, rfl⟩
  rw [Session.selectedHash, Session.algos, hsched, Option.map_some, Option.bind_some,
    List.head?_map, hslot]
  rfl

/-- The context of a ticket is that of a connection: the one that is configured, or the server
name. -/
def Tls.HasTicketContext (tls : Tls) (ticketCtx : Bytes) : Prop :=
  match tls.ctx.ticketContext with
  | some octets => ticketCtx = octets
  | none => ticketCtx = tls.serverName.getD []

/-- Comparing octets with a C string does not change anything. -/
theorem vecIsString_eq_ok {x y : Bytes} {equal : Bool}
    (h : vecIsString x y env s = (.ok equal, t)) : equal = decide (x = y) ∧ t = s := by
  unfold vecIsString at h
  split_ifs at h with hnull
  · cases h
  · cases h
    exact ⟨rfl, rfl⟩

/-- A ticket whose context matches has the context of the connection. -/
theorem ticketContextMatches_eq_ok {ticketCtx : Bytes}
    (h : ticketContextMatches ticketCtx env s = (.ok true, t)) :
    s.tls.HasTicketContext ticketCtx ∧ t = s := by
  rw [ticketContextMatches, getTls_bind] at h
  unfold Tls.HasTicketContext
  cases hctx : s.tls.ctx.ticketContext with
  | some octets =>
    simp only [hctx] at h
    obtain ⟨hequal, rfl⟩ := Prod.ext_iff.mp h
    exact ⟨of_decide_eq_true (Except.ok.inj hequal), rfl⟩
  | none =>
    simp only [hctx] at h
    cases hname : s.tls.serverName with
    | none =>
      simp only [hname] at h
      obtain ⟨hequal, rfl⟩ := Prod.ext_iff.mp h
      exact ⟨of_decide_eq_true (Except.ok.inj hequal), rfl⟩
    | some name =>
      simp only [hname] at h
      split_ifs at h with hempty
      · cases h
      · obtain ⟨hequal, rfl⟩ := vecIsString_eq_ok h
        exact ⟨of_decide_eq_true hequal.symm, rfl⟩

/-- A ticket whose protocol matches has none or that of the connection. -/
theorem ticketProtocolMatches_eq_ok {protocol : Bytes}
    (h : ticketProtocolMatches protocol env s = (.ok true, t)) :
    (protocol = [] ∨ s.tls.negotiatedProtocol = some protocol) ∧ t = s := by
  rw [ticketProtocolMatches, getTls_bind] at h
  split_ifs at h with hempty
  · cases h
    exact ⟨.inl hempty, rfl⟩
  · cases hprotocol : s.tls.negotiatedProtocol with
    | none =>
      simp only [hprotocol] at h
      cases h
    | some octets =>
      simp only [hprotocol] at h
      obtain ⟨hequal, rfl⟩ := vecIsString_eq_ok h
      rw [of_decide_eq_true hequal.symm]
      exact ⟨.inr rfl, rfl⟩

/-- A ticket that a connection selects, with the answer of the application that opened it and its
contents. -/
structure UsesTicket (env : Environment) (now : ℕ) (ch : ClientHello) (index : ℕ)
    (identity : PskIdentity) (s : Session) (psk : SelectedPsk) (ret : Code)
    (ticket : SessionIdentifier) : Prop where
  opened : ∃ octets, env.encryptTicket s.tick false identity.identity = (ret, octets) ∧
    decodeSessionIdentifier octets = .ok ticket
  issued : ticket.issuedAt ≤ now
  alive : now - ticket.issuedAt ≤ s.tls.ctx.ticketLifetime * 1000
  context : s.tls.HasTicketContext ticket.ticketCtx
  suite : s.tls.cipherSuite.map CipherSuite.id = some ticket.csid
  protocol : ticket.negotiatedProtocol = [] ∨
    s.tls.negotiatedProtocol = some ticket.negotiatedProtocol
  binder : s.selectedHash.map HashAlgorithm.digestSize = some identity.binder.data.length
  selected : psk = ⟨index, ticket.psk, ch.earlyDataIndication &&
    decide (index = 0 ∧ ret = 0 ∧ s.tls.ctx.maxEarlyDataSize ≠ 0) &&
    earlyDataIsTimely now ticket.issuedAt identity.obfuscatedTicketAge ticket.ticketAgeAdd,
    identity.binder⟩

/-- A ticket that is selected passes all checks. -/
theorem tryTicket_eq_some (h : tryTicket now ch index identity env s = (.ok (some psk), t)) :
    ∃ ret ticket, UsesTicket env now ch index identity s psk ret ticket := by
  rw [tryTicket, getTls_bind] at h
  split_ifs at h with hconfigured
  · cases h
  rw [ask_bind] at h
  rcases hopened : env.encryptTicket s.tick false identity.identity with ⟨ret, octets⟩
  simp only [hopened] at h
  split_ifs at h with hret
  · cases h
  cases hdecode : decodeSessionIdentifier octets with
  | error fault =>
    simp only [hdecode] at h
    cases h
  | ok ticket =>
    simp only [hdecode] at h
    split_ifs at h with hage
    · cases h
    obtain ⟨contextOk, s₁, hcontext, h⟩ := bind_eq_ok.mp h
    cases contextOk with
    | false => cases h
    | true =>
      obtain ⟨hmatches, rfl⟩ := ticketContextMatches_eq_ok hcontext
      simp only [Bool.not_true, Bool.false_eq_true, if_false] at h
      cases hfind : (s.tls.ctx.keyExchanges.getD []).find? (·.id = ticket.keyExchangeId) with
      | none =>
        simp only [hfind] at h
        cases h
      | some algo =>
        simp only [hfind] at h
        rw [modifyTls_bind] at h
        obtain ⟨suite, s₂, hderef, h⟩ := bind_eq_ok.mp h
        obtain ⟨hsuite, rfl⟩ := deref_eq_ok.mp hderef
        split_ifs at h with hcsid
        · cases h
        obtain ⟨protocolOk, s₃, hprotocol, h⟩ := bind_eq_ok.mp h
        cases protocolOk with
        | false => cases h
        | true =>
          obtain ⟨hagrees, rfl⟩ := ticketProtocolMatches_eq_ok hprotocol
          simp only [Bool.not_true, Bool.false_eq_true, if_false] at h
          obtain ⟨slot, s₄, hslot, h⟩ := bind_eq_ok.mp h
          obtain ⟨hhash, rfl⟩ := firstHash_selectedHash hslot
          split_ifs at h with hsizes
          · cases h
          cases h
          refine ⟨ret, ticket, ⟨octets, hopened, hdecode⟩, by omega, by omega, hmatches, ?_,
            hagrees, ?_, rfl⟩
          · rw [hsuite, Option.map_some, not_not.mp hcsid]
          · have hsame : s.selectedHash = some slot.algo := hhash
            rw [hsame, Option.map_some]
            exact congrArg some (by omega)

/-- How an identity is selected: as the external key, or as a ticket where none is configured. -/
theorem tryPskIdentity_eq_some
    (h : tryPskIdentity now ch index identity env s = (.ok (some psk), t)) :
    (∃ external, s.tls.ctx.preSharedKey = some external ∧ identity.identity = external.identity ∧
        psk = ⟨index, external.secret, ch.earlyDataIndication && decide (index = 0),
          identity.binder⟩) ∨
      (s.tls.ctx.preSharedKey = none ∧
        ∃ ret ticket, UsesTicket env now ch index identity s psk ret ticket) := by
  rw [tryPskIdentity, getTls_bind] at h
  cases hexternal : s.tls.ctx.preSharedKey with
  | some external =>
    simp only [hexternal] at h
    split_ifs at h with hname
    · cases h
      exact .inl ⟨external, rfl, hname, rfl⟩
    · cases h
  | none =>
    simp only [hexternal] at h
    exact .inr ⟨rfl, tryTicket_eq_some h⟩

/-- An identity that is passed over where an external key is configured does not name it. -/
theorem tryPskIdentity_eq_none (h : tryPskIdentity now ch index identity env s = (.ok none, t))
    {external : PreSharedKey} (hexternal : s.tls.ctx.preSharedKey = some external) :
    identity.identity ≠ external.identity := by
  rw [tryPskIdentity, getTls_bind] at h
  simp only [hexternal] at h
  intro hname
  rw [if_pos hname] at h
  cases h

/-- The identity that is selected comes after others that were passed over; the terms of the
connection are those it had before the search. -/
theorem findPsk_eq_some {identities : List PskIdentity}
    (h : findPsk now ch index identities env s = (.ok (some psk), t)) :
    ∃ before identity after u, identities = before ++ identity :: after ∧ SameTerms s u ∧
      (before = [] → u = s) ∧
      tryPskIdentity now ch (index + before.length) identity env u = (.ok (some psk), t) ∧
      ∀ external, s.tls.ctx.preSharedKey = some external →
        ∀ other ∈ before, other.identity ≠ external.identity := by
  induction identities generalizing index s with
  | nil => cases h
  | cons identity rest ih =>
    rw [findPsk] at h
    obtain ⟨selected, s₁, hfirst, h⟩ := bind_eq_ok.mp h
    cases selected with
    | some first =>
      cases h
      refine ⟨[], identity, rest, s, rfl, .refl s, fun _ => rfl, hfirst, ?_⟩
      intro _ _ _ hmem
      cases hmem
    | none =>
      have hterms : SameTerms s s₁ := by
        have hsteps : Via [.io, .negotiation] s s₁ :=
          Within.steps inferInstance hfirst
        exact Steps.sameTerms hsteps (by decide)
      obtain ⟨before, found, after, u, hrest, hu, -, hfound, hbefore⟩ := ih h
      refine ⟨identity :: before, found, after, u, by rw [hrest]; rfl, hterms.trans hu,
        fun hnil => absurd hnil (List.cons_ne_nil _ _), ?_, fun external hexternal => ?_⟩
      · rwa [List.length_cons, Nat.add_comm before.length 1, ← Nat.add_assoc]
      · intro other hother
        obtain rfl | hmem := List.mem_cons.mp hother
        · exact tryPskIdentity_eq_none hfirst hexternal
        · exact hbefore external (hterms.ctx ▸ hexternal) other hmem

/-- The effects of the steps before the comparison. -/
abbrev comparisonEffects : List Effect :=
  [.io, .transcript, .advance, .negotiation, .note .derive, .note .finishedMac]

/-- The steps before a comparison: the search for a key, and a tag of the size of the digest. -/
theorem pskBeforeComparison_eq_some [Crypto] {hashEnd : ℕ} {isSecondFlight : Bool} {tag : Bytes}
    (h : pskBeforeComparison ch message hashEnd isSecondFlight env s = (.ok (some (psk, tag)), t)) :
    ∃ u algo, findPsk (env.getTime s.tick) ch 0 ch.pskIdentities env
        { s with tick := s.tick + 1 } = (.ok (some psk), u) ∧
      s.selectedHash = some algo ∧ tag.length = algo.digestSize := by
  unfold pskBeforeComparison at h
  rw [ask_bind] at h
  obtain ⟨selected, u, hfind, h⟩ := bind_eq_ok.mp h
  cases selected with
  | none => cases h
  | some found =>
    obtain ⟨_, s₁, hextract, h⟩ := bind_eq_ok.mp h
    rw [getTls_bind] at h
    obtain ⟨binderKey, s₂, hkey, h⟩ := bind_eq_ok.mp h
    obtain ⟨_, s₃, hhash, h⟩ := bind_eq_ok.mp h
    obtain ⟨output, s₄, hverify, h⟩ := bind_eq_ok.mp h
    cases h
    have hbefore : Via comparisonEffects { s with tick := s.tick + 1 } s₃ := by
      have hu : Via comparisonEffects { s with tick := s.tick + 1 } u :=
        Within.steps inferInstance hfind
      have h₁ : Via comparisonEffects u s₁ := Within.steps inferInstance hextract
      have h₂ : Via comparisonEffects s₁ s₂ := Within.steps inferInstance hkey
      have h₃ : Via comparisonEffects s₂ s₃ := Within.steps inferInstance hhash
      exact ((hu.trans h₁).trans h₂).trans h₃
    have halgos := Steps.algos_eq hbefore (by decide)
    change s₃.algos = s.algos at halgos
    obtain ⟨slot, s₅, hslot, hafter₁⟩ := bind_eq_ok.mp hverify
    obtain ⟨hselected, rfl⟩ := firstHash_selectedHash hslot
    obtain ⟨key, s₆, -, hafter₂⟩ := bind_eq_ok.mp hafter₁
    obtain ⟨_, s₇, -, hafter₃⟩ := bind_eq_ok.mp hafter₂
    cases hafter₃
    refine ⟨u, slot.algo, hfind, ?_, hmac_length _ _ _⟩
    rw [Session.selectedHash, ← halgos]
    exact hselected

end Picotls
