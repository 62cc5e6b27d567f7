import Picotls.Sample
import Picotls.Server.FirstFlight
import Picotls.Server.PskSelection

/-!
# Bounds of the PSK binder

The binder of the selected identity is compared with a tag of the size of the digest, and copied to
a buffer of the size of the largest digest. For a ticket the size of the binder is checked before;
for the external key it is not, so that both are right just where the first identity that names the
external key comes with a binder of the size of the digest.
-/

namespace Picotls

open Foundation Procedure

variable [Crypto]

/-! ## Bounds -/

variable {env : Environment} {message : Bytes} {ch : ClientHello} {s t : Session}
  {psk : SelectedPsk} {tag : Bytes} {hashEnd : ℕ} {isSecondFlight : Bool}

/-- The binder of the selected identity has the size of the digest, the comparison with the tag
reads the binder and nothing else, and the binder fits the buffer it is copied to. -/
structure BinderInBounds (message : Bytes) (ch : ClientHello) (psk : SelectedPsk) (tag : Bytes)
    (algo : HashAlgorithm) : Prop where
  identity : ∃ identity, ch.pskIdentities[psk.index]? = some identity ∧
    identity.binder = psk.binder
  size : psk.binder.data.length = algo.digestSize
  compared : tag.length = algo.digestSize ∧ comparedOctets message psk tag = psk.binder.data
  copied : psk.binder.data.length ≤ maxDigestSize

/-- The first identity that names the external key, if one is configured, comes with a binder of the
size of the digest. -/
def ExternalBinderFits (ctx : Context) (ch : ClientHello) (algo : HashAlgorithm) : Prop :=
  ∀ external, ctx.preSharedKey = some external → ∀ identity,
    ch.pskIdentities.find? (fun identity => identity.identity = external.identity) =
      some identity → identity.binder.data.length = algo.digestSize

omit [Crypto] in
/-- The modes that a context rules out do not concern the identities. -/
theorem pskIdentities_allowedPskKeModes (ctx : Context) (ch : ClientHello) :
    (allowedPskKeModes ctx ch).pskIdentities = ch.pskIdentities := by
  unfold allowedPskKeModes
  split <;> rfl

/-- Whenever the server compares the binder of a decoded hello, the comparison and the copy of the
binder are within bounds exactly when the first identity that names an external key comes with a
binder of the size of the digest. -/
theorem psk_binder_in_bounds_iff (env : Environment) (message : Bytes)
    (properties : Option HandshakeProperties) (ch : ClientHello) (s₀ s₁ : Session)
    (hdecode : decodeClientHello message properties env s₀ = (.ok ch, s₁)) (hashEnd : ℕ)
    (isSecondFlight : Bool) (s t : Session) (psk : SelectedPsk) (tag : Bytes)
    (hreached : pskBeforeComparison (allowedPskKeModes s.tls.ctx ch) message hashEnd isSecondFlight
      env s = (.ok (some (psk, tag)), t)) :
    ∃ algo, s.selectedHash = some algo ∧
      (BinderInBounds message ch psk tag algo ↔ ExternalBinderFits s.tls.ctx ch algo) := by
  obtain ⟨u, algo, hfind, hhash, htag⟩ := pskBeforeComparison_eq_some hreached
  refine ⟨algo, hhash, ?_⟩
  rw [pskIdentities_allowedPskKeModes] at hfind
  obtain ⟨before, identity, after, v, hidentities, hterms, -, htry, hbefore⟩ :=
    findPsk_eq_some hfind
  have hpart : identity.binder.IsPart message :=
    (decodeClientHello_decodedFrom hdecode).binders identity (by simp [hidentities])
  have hselected : psk.index = before.length ∧ psk.binder = identity.binder := by
    obtain ⟨external, -, -, rfl⟩ | ⟨-, ret, ticket, hticket⟩ := tryPskIdentity_eq_some htry
    · exact ⟨Nat.zero_add _, rfl⟩
    · rw [hticket.selected]
      exact ⟨Nat.zero_add _, rfl⟩
  -- The binder is where it should be; what remains is its size.
  have hbounds : BinderInBounds message ch psk tag algo ↔
      identity.binder.data.length = algo.digestSize := by
    constructor
    · intro h
      rw [← hselected.2]
      exact h.size
    · intro hsize
      refine ⟨⟨identity, ?_, hselected.2.symm⟩, ?_, ⟨htag, ?_⟩, ?_⟩
      · rw [hidentities, hselected.1]
        simp
      · rw [hselected.2, hsize]
      · rw [comparedOctets, htag, hselected.2, ← hsize]
        exact hpart.read_eq
      · rw [hselected.2, hsize]
        exact algo.digestSize_le
  rw [hbounds]
  obtain ⟨external, hexternal, hname, -⟩ | ⟨hnone, ret, ticket, hticket⟩ :=
    tryPskIdentity_eq_some htry
  · have hctx : s.tls.ctx.preSharedKey = some external := by
      rw [← hterms.ctx] at *
      exact hexternal
    have hfirst : ch.pskIdentities.find?
        (fun identity => identity.identity = external.identity) = some identity := by
      rw [hidentities, List.find?_append, List.find?_eq_none.mpr ?_]
      · simp [hname]
      · intro other hother
        simpa using hbefore external hctx other hother
    constructor
    · intro hsize external' hexternal' identity' hidentity'
      rw [hctx] at hexternal'
      obtain rfl := Option.some.inj hexternal'
      rw [hfirst] at hidentity'
      rw [← Option.some.inj hidentity', hsize]
    · intro hfits
      exact hfits external hctx identity hfirst
  · have hsize : identity.binder.data.length = algo.digestSize := by
      have hbinder := hticket.binder
      have hsame : v.selectedHash = some algo := by
        rw [Session.selectedHash, hterms.algos]
        exact hhash
      rw [hsame, Option.map_some] at hbinder
      exact (Option.some.inj hbinder).symm
    refine iff_of_true hsize fun external hexternal => ?_
    rw [hterms.ctx] at hnone
    rw [hnone] at hexternal
    cases hexternal

/-! ## Binders of other sizes -/

namespace Sample

/-- A hello that offers the external key of the sample context with a binder. -/
def pskOffer (binder : Bytes) : Bytes :=
  clientHello (clientExtensions [0, 29] ([0, 29] ++ block 2 [7]) ++
    [0, 45] ++ block 2 (block 1 [pskKeModePskDhe]) ++
    [0, 41] ++ block 2 (block 2 (block 2 [1] ++ zeros 4) ++ block 2 (block 1 binder)))

/-- A server that knows the external key. -/
def pskServer : Session := .initial pskContext true

/-- The server after it has selected a suite. -/
def pskServerKeyed : Session :=
  { pskServer with tls := { pskServer.tls with
      cipherSuite := some (suite 0x1301 0)
      keySchedule := some { hashes := [{ algo := hash 0 }] } } }

/-- The decoded hello of the sample. -/
def pskOfferDecoded (binder : Bytes) : Except Fault ClientHello × Session :=
  decodeClientHello (pskOffer binder) none environment pskServer

/-- What the server does with the hello of the sample before the comparison. -/
def pskOfferReached (binder : Bytes) (ch : ClientHello) :
    Except Fault (Option (SelectedPsk × Bytes)) × Session :=
  @pskBeforeComparison crypto (allowedPskKeModes pskServerKeyed.tls.ctx ch) (pskOffer binder)
    (ch.pskHashEnd.getD 0) false environment pskServerKeyed

end Sample

omit [Crypto] in
/-- A procedure that returns a value with a certain image returns. -/
theorem exists_ok_of_map {α β : Type} {outcome : Except Fault α × Session} {f : α → β} {b : β}
    (h : outcome.1.map f = .ok b) : ∃ a t, outcome = (.ok a, t) ∧ f a = b := by
  obtain ⟨fault | a, t⟩ := outcome
  · cases h
  · exact ⟨a, t, rfl, Except.ok.inj h⟩

open Sample

omit [Crypto] in
/-- A hello whose binder is empty reaches a comparison that is out of bounds: the server reads past
the end of the message. It copies a binder of 65 octets to a buffer of 64. -/
theorem psk_binder_out_of_bounds :
    (∃ ch s₁ psk tag t, pskOfferDecoded [] = (.ok ch, s₁) ∧
      pskOfferReached [] ch = (.ok (some (psk, tag)), t) ∧
      ¬ BinderInBounds (pskOffer []) ch psk tag (Sample.hash 0)) ∧
    (@serverHandleHello crypto .record (pskOffer []) (some {}) environment
      pskServer).1 = .error .undefined ∧
    maxDigestSize < (@serverHandleHello crypto .record
      (pskOffer ([204, 204] ++ zeros 63)) (some {}) environment
      pskServer).2.report.selectedPskBinder.length := by
  refine ⟨?_, by decide +kernel, by decide +kernel⟩
  obtain ⟨ch, s₁, hdecode, hreaches⟩ : ∃ ch s₁, pskOfferDecoded [] = (.ok ch, s₁) ∧
      (pskOfferReached [] ch).1.map (Option.map fun reached =>
        reached.1.binder.data.length) = .ok (some 0) :=
    exists_ok_of_map (by decide +kernel)
  obtain ⟨reached, t, hreached, hsize⟩ := exists_ok_of_map hreaches
  cases reached with
  | none => cases hsize
  | some result =>
    refine ⟨ch, s₁, result.1, result.2, t, hdecode, hreached, fun hbounds => ?_⟩
    have hempty : result.1.binder.data.length = 0 := Option.some.inj hsize
    have hdigest := hbounds.size
    rw [hempty] at hdigest
    cases hdigest

omit [Crypto] in
/-- The theorem at a hello whose binder has the size of the digest. -/
theorem psk_binder_in_bounds_sample :
    ∃ ch s₁ psk tag t, pskOfferDecoded [60, 60] = (.ok ch, s₁) ∧
      pskOfferReached [60, 60] ch = (.ok (some (psk, tag)), t) ∧
      BinderInBounds (pskOffer [60, 60]) ch psk tag (Sample.hash 0) := by
  obtain ⟨ch, s₁, hdecode, hfacts⟩ : ∃ ch s₁, pskOfferDecoded [60, 60] = (.ok ch, s₁) ∧
      ((pskOfferReached [60, 60] ch).1.map Option.isSome,
        ch.pskIdentities.map fun identity => identity.binder.data) = (.ok true, [[60, 60]]) :=
    exists_ok_of_map (by decide +kernel)
  obtain ⟨hreaches, hbinders⟩ := Prod.mk.inj hfacts
  obtain ⟨reached, t, hreached, hsome⟩ := exists_ok_of_map hreaches
  obtain ⟨⟨psk, tag⟩, rfl⟩ := Option.isSome_iff_exists.mp hsome
  obtain ⟨algo, halgo, hiff⟩ := @psk_binder_in_bounds_iff crypto environment _ none ch
    pskServer s₁ hdecode _ false pskServerKeyed t psk tag hreached
  obtain rfl : Sample.hash 0 = algo := Option.some.inj halgo
  refine ⟨ch, s₁, psk, tag, t, hdecode, hreached, hiff.mpr fun external _ identity hfind => ?_⟩
  have hmem : identity.binder.data ∈ ch.pskIdentities.map fun identity => identity.binder.data :=
    List.mem_map_of_mem (List.mem_of_find?_eq_some hfind)
  have hdata : identity.binder.data = [60, 60] := by
    rw [hbinders] at hmem
    exact List.mem_singleton.mp hmem
  rw [hdata]
  rfl

end Picotls
