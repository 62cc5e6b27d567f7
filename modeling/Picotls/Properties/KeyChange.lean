import Picotls.Effects.Transfer
import Picotls.ServerInvariants
import Picotls.ClientInvariants
import Picotls.Sample

/-!
# Key changes within a record

A message after which the peer's records are under another key should end its record, so that
nothing in a record is read under the key that comes after it. The hellos and the Finished messages
are refused elsewhere; a KeyUpdate and an EndOfEarlyData are not.
-/

namespace Picotls

open Foundation Procedure

/-- Wherever the key for receiving was changed, nothing followed in the record. -/
def KeyChangesEndRecords (trace : List Event) : Prop :=
  ∀ message rest, .handled message rest true ∈ trace → rest = []

/-- Nothing followed in its record after a KeyUpdate or an EndOfEarlyData that was handled. -/
def UpdatesEndRecords (trace : List Event) : Prop :=
  ∀ message rest keyChanged, .handled message rest keyChanged ∈ trace →
    ChangesKeyAnywhere message → rest = []

/-- What is known of the messages that were handled. -/
def HandledInv (s : Session) : Prop :=
  ∀ message rest (keyChanged : Bool), .handled message rest keyChanged ∈ s.trace →
    (keyChanged → rest = [] ∨ ChangesKeyAnywhere message) ∧
      (ChangesKeyAnywhere message → keyChanged)

theorem HandledInv.of_trace {s : Session} (h : s.trace = []) : HandledInv s := by
  intro message rest keyChanged hmem
  rw [h] at hmem
  cases hmem

/-- Every step keeps what is known of the messages that were handled. -/
theorem HandledInv.step (e : Effect) (s s' : Session) (he : e ≠ .note .handled)
    (hstep : Effect.Step e s s') (hs : HandledInv s) : HandledInv s' := by
  by_cases hemits : e.emits .handled = true
  · cases hstep with
    | handled _ message rest keyChanged hends hchanges =>
      intro message' rest' keyChanged' hmem
      rcases List.mem_append.mp hmem with hmem | hmem
      · exact hs message' rest' keyChanged' hmem
      · cases List.mem_singleton.mp hmem
        exact ⟨hends, hchanges⟩
    | note _ event => exact absurd (congrArg Effect.note (of_decide_eq_true hemits).symm) he
    | _ => simp [Effect.emits] at hemits
  · intro message rest keyChanged hmem
    have hkeeps := Steps.mem_trace (.handled message rest keyChanged)
      (Relation.ReflTransGen.single ⟨e, List.mem_singleton_self e, hstep⟩)
      (by simpa using hemits)
    exact hs message rest keyChanged (hkeeps.mp hmem)

/-- Keys change at the end of records exactly if the updates do. -/
theorem HandledInv.iff {s : Session} (hs : HandledInv s) :
    KeyChangesEndRecords s.trace ↔ UpdatesEndRecords s.trace := by
  constructor
  · intro hends message rest keyChanged hmem hany
    obtain rfl : keyChanged = true := (hs message rest keyChanged hmem).2 hany
    exact hends message rest hmem
  · intro hupdates message rest hmem
    rcases (hs message rest true hmem).1 rfl with hempty | hany
    · exact hempty
    · exact hupdates message rest true hmem hany

variable [Crypto]

/-- In every run of a client, of a server, and of an imported connection, the key for receiving is
changed only at the end of a record exactly if every KeyUpdate and every EndOfEarlyData that is
handled ends its record. -/
theorem key_changes_end_records (env : Environment) (ctx : Context) (operations : List Operation) :
    (∀ serverName, KeyChangesEndRecords (clientRun env ctx serverName operations).trace ↔
      UpdatesEndRecords (clientRun env ctx serverName operations).trace) ∧
    (KeyChangesEndRecords (serverRun env ctx operations).trace ↔
      UpdatesEndRecords (serverRun env ctx operations).trace) ∧
    ∀ params t, ptlsImport ctx params env (.initial ctx false) = (.ok (), t) →
      (KeyChangesEndRecords (importedRun env ctx params operations).trace ↔
        UpdatesEndRecords (importedRun env ctx params operations).trace) := by
  have hinv := IsInvariant.of_step HandledInv.step env
  refine ⟨fun serverName => ?_, ?_, fun params t himport => ?_⟩
  · exact (hinv.clientRun_inv (fun s hs => .of_trace hs.1) serverName operations).iff
  · exact (hinv.performAll_inv operations true (s := .newServer ctx) (.of_trace rfl)).iff
  · have hrun : importedRun env ctx params operations = (performAll true operations env t).2 :=
      congrArg Prod.snd (bind_of_ok himport)
    obtain ⟨isServer, isPskHandshake, s₁, t₁, -, htrace, hsteps, rfl⟩ := ptlsImport_eq_ok himport
    have ht₁ : HandledInv t₁ := by
      refine hsteps.preserves (P := HandledInv) (fun e he u u' hstep => ?_) (.of_trace htrace)
      exact HandledInv.step e u u' (fun heq => by subst heq; exact absurd he (by decide)) hstep
    rw [hrun]
    exact HandledInv.iff (hinv.performAll_inv operations true (s := { t₁ with tls := _ }) ht₁)

namespace Sample

/-- A KeyUpdate that asks for none in return. -/
def keyUpdate : Bytes := message HandshakeType.keyUpdate [0]

/-- A client that completes a handshake and is then sent one record. -/
def updatedClient (content : Bytes) : Session :=
  @clientRun crypto environment dheContext none
    (pskHandshake helloExtensions [140, 140] ++ [.receive (sealed content)])

end Sample

open Sample

omit [Crypto] in
/-- A client changes its key for receiving at a KeyUpdate, and goes on in the same record. -/
theorem key_change_within_record :
    .handled keyUpdate keyUpdate true ∈
        (updatedClient (keyUpdate ++ keyUpdate)).trace ∧
      .handled keyUpdate [] true ∈
        (updatedClient (keyUpdate ++ keyUpdate)).trace ∧
      ¬ KeyChangesEndRecords
        (updatedClient (keyUpdate ++ keyUpdate)).trace := by
  have hfirst : .handled keyUpdate keyUpdate true ∈
      (updatedClient (keyUpdate ++ keyUpdate)).trace := by decide +kernel
  refine ⟨hfirst, by decide +kernel, fun hends => ?_⟩
  exact absurd (hends _ _ hfirst) (by decide)

omit [Crypto] in
theorem updatesEndRecords_of_all {trace : List Event} (h : trace.all (fun event => match event with
    | .handled _ rest _ => rest = []
    | _ => true) = true) : UpdatesEndRecords trace := by
  intro message rest keyChanged hmem _
  have hempty := List.all_eq_true.mp h _ hmem
  simpa using hempty

omit [Crypto] in
/-- The theorem at a client that is sent a record with one KeyUpdate, and at an imported server. -/
theorem key_changes_end_records_sample :
    (let run := @clientRun crypto environment dheContext none
      (pskHandshake helloExtensions [140, 140] ++
        [.receive (sealed keyUpdate)])
    .handled keyUpdate [] true ∈ run.trace ∧ KeyChangesEndRecords run.trace) ∧
    (let run := @importedRun crypto environment context exportedServer
      [.receive (sealed keyUpdate)]
    .handled keyUpdate [] true ∈ run.trace ∧ KeyChangesEndRecords run.trace) := by
  have himport : (@ptlsImport crypto context exportedServer
      environment (.initial context false)).1 = .ok () := by decide +kernel
  have hpair (outcome : Except Fault Unit × Session) (hok : outcome.1 = .ok ()) :
      outcome = (.ok (), outcome.2) := Prod.ext hok rfl
  have hclient := (@key_changes_end_records crypto environment dheContext
    (pskHandshake helloExtensions [140, 140] ++
      [.receive (sealed keyUpdate)])).1 none
  have hserver := (@key_changes_end_records crypto environment context
    [.receive (sealed keyUpdate)]).2.2 _ _ (hpair _ himport)
  refine ⟨⟨by decide +kernel, hclient.mpr ?_⟩, ⟨by decide +kernel, hserver.mpr ?_⟩⟩
  · exact updatesEndRecords_of_all (by decide +kernel)
  · exact updatesEndRecords_of_all (by decide +kernel)

end Picotls
