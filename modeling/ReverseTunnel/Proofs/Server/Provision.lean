import ReverseTunnel.Proofs.Text.Trim
import ReverseTunnel.Server.Reaction

/-!
What a request for a public port comes to.

A request that is valid for itself, of a connection that owns no proxy, is decided by
its trimmed name and by its bind alone: it is refused if the name is taken and else if
the bind fails, and granted otherwise. Only such requests are granted, and a registry
changes only in the entries of the connection that a message came from.
-/

namespace ReverseTunnel.Server

open Session (ConnId)
open Wire (Message Request)

variable {o : Options} {a : Seal.Aead} {bind : Binder} {now : Nat} {reg : Registry} {c d : ConnId}
  {sealedRequest : Bytes} {p : Registration} {q : Request}

/-- A request that nothing is wrong with but, at most, that its name is taken or its
address cannot be bound. -/
structure Valid (o : Options) (a : Seal.Aead) (reg : Registry) (c : ConnId) (sealedRequest : Bytes)
    (q : Request) : Prop where
  authenticated : reg.isAuthenticated c = true
  opens : Seal.openRequest a o.sealKey sealedRequest = .ok q
  secret : q.secret = o.secret
  named : Text.trim q.name ≠ ""
  single : reg.owns c = false

/-- What a valid request with a free name comes to: its bind decides. -/
def decided (o : Options) (bind : Binder) (now : Nat) (c : ConnId) (q : Request) :
    Except ProvisionError Registration :=
  match bind (o.bindAddr q) with
  | .error cause => .error (.bind (o.bindAddr q) cause)
  | .ok bound => .ok { owner := c, name := Text.trim q.name, bound, startedAt := now }

theorem provision_of_valid (h : Valid o a reg c sealedRequest q) :
    provision o a bind now reg c sealedRequest =
      if reg.isTaken (Text.trim q.name) = true then .error (.nameTaken (Text.trim q.name))
      else decided o bind now c q := by
  unfold provision
  rw [if_neg (by simp [h.authenticated]), h.opens]
  simp only [h.secret, h.named, h.single, ne_eq, not_true_eq_false, if_false, Bool.false_eq_true]
  split
  · rfl
  · unfold decided
    cases bind (o.bindAddr q) <;> rfl

/-- A request that is granted is valid, its name is free and its bind succeeds. -/
theorem valid_of_provision (h : provision o a bind now reg c sealedRequest = .ok p) :
    ∃ q, Valid o a reg c sealedRequest q ∧ reg.isTaken (Text.trim q.name) = false ∧
      decided o bind now c q = .ok p := by
  -- one split for each ground of refusal, in their order
  unfold provision at h
  split at h
  · cases h
  · rename_i hauth
    split at h
    · cases h
    · rename_i q hopens
      dsimp only at h
      split at h
      · cases h
      · rename_i hsecret
        split at h
        · cases h
        · rename_i hnamed
          split at h
          · cases h
          · rename_i hsingle
            split at h
            · cases h
            · rename_i hfree
              refine ⟨q, ⟨by simpa using hauth, hopens, by simpa using hsecret, hnamed,
                by simpa using hsingle⟩, by simpa using hfree, ?_⟩
              unfold decided
              cases hbind : bind (o.bindAddr q) with
              | error cause =>
                rw [hbind] at h
                cases h
              | ok bound =>
                rw [hbind] at h
                exact h

theorem eq_of_decided (h : decided o bind now c q = .ok p) :
    p.owner = c ∧ p.name = Text.trim q.name := by
  unfold decided at h
  split at h
  · cases h
  · cases h
    exact ⟨rfl, rfl⟩

theorem bind_of_decided (h : decided o bind now c q = .ok p) :
    bind (o.bindAddr q) = .ok p.bound := by
  unfold decided at h
  split at h
  · cases h
  · rename_i bound hbind
    cases h
    exact hbind

theorem provision_owner (h : provision o a bind now reg c sealedRequest = .ok p) : p.owner = c := by
  obtain ⟨q, -, -, hp⟩ := valid_of_provision h
  exact (eq_of_decided hp).1

/-! ## What a message changes -/

/-- What is remembered after a message. -/
inductive Recorded (o : Options) (a : Seal.Aead) (bind : Binder) (now : Nat) (reg : Registry)
    (c : ConnId) : Message → Registry → Prop
  | admits (token : String) (h : o.admits token = true) :
      Recorded o a bind now reg c (.auth token) (reg.authenticate c)
  | rejects (token : String) (h : o.admits token = false) :
      Recorded o a bind now reg c (.auth token) (reg.dismiss c)
  | grants (sealedRequest : Bytes) (p : Registration)
      (h : provision o a bind now reg c sealedRequest = .ok p) :
      Recorded o a bind now reg c (.openDataPort sealedRequest) (reg.register p)
  | keeps (m : Message) (h : ∀ token, m ≠ .auth token) : Recorded o a bind now reg c m reg

theorem recorded_react (o : Options) (a : Seal.Aead) (bind : Binder) (now : Nat) (reg : Registry)
    (c : ConnId) (m : Message) : Recorded o a bind now reg c m (react o a bind now reg c m).1 := by
  cases m with
  | auth token =>
    simp only [react, onAuth]
    split
    · rename_i h
      exact .admits token h
    · rename_i h
      exact .rejects token (by simpa using h)
  | openDataPort sealedRequest =>
    simp only [react, onOpenDataPort]
    split
    · rename_i p hp
      exact .grants sealedRequest p hp
    · exact .keeps _ nofun
  | heartbeat _ | authAck _ _ | heartbeatAck _ _ | openDataPortAck _ _ _ _ | openDataConn _
  | openDataConnAck _ _ => exact .keeps _ nofun

/-- The proxies that a connection owns, of those registered. -/
def Registry.ownedBy (reg : Registry) (c : ConnId) : List Registration :=
  reg.proxies.filter (·.owner = c)

@[simp]
theorem Registry.proxies_authenticate (reg : Registry) (c : ConnId) :
    (reg.authenticate c).proxies = reg.proxies := by
  unfold Registry.authenticate
  split <;> rfl

theorem Registry.ownedBy_register (hp : p.owner ≠ d) :
    (reg.register p).ownedBy d = reg.ownedBy d := by
  simp [Registry.ownedBy, Registry.register, hp]

theorem Registry.ownedBy_forget (h : d ≠ c) : (reg.forget c).ownedBy d = reg.ownedBy d := by
  unfold Registry.ownedBy Registry.forget
  rw [List.filter_filter]
  apply List.filter_congr
  intro p _
  by_cases hp : p.owner = d
  · simp [hp, h]
  · simp [hp]

theorem Registry.isAuthenticated_forget (h : d ≠ c) :
    (reg.forget c).isAuthenticated d = reg.isAuthenticated d := by
  show (reg.dismiss c).isAuthenticated d = _
  rw [Registry.isAuthenticated_dismiss]
  simp [h]

variable {m : Message} {reg' : Registry}

theorem Recorded.apart (h : Recorded o a bind now reg c m reg') (hd : d ≠ c) :
    reg'.isAuthenticated d = reg.isAuthenticated d ∧ reg'.ownedBy d = reg.ownedBy d := by
  cases h with
  | admits token =>
    refine ⟨?_, by simp [Registry.ownedBy]⟩
    rw [Registry.isAuthenticated_authenticate]
    simp [hd]
  | rejects token =>
    refine ⟨?_, rfl⟩
    rw [Registry.isAuthenticated_dismiss]
    simp [hd]
  | grants sealedRequest p hp =>
    exact ⟨rfl, Registry.ownedBy_register (provision_owner hp ▸ Ne.symm hd)⟩
  | keeps => exact ⟨rfl, rfl⟩

end ReverseTunnel.Server
