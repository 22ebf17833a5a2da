import ReverseTunnel.Proofs.Server.Connections

/-!
What an event queues on a connection.

An event only ever adds to the end of an outbox, or takes from it (`Run.queuedOn`). What
happens on a link queues nothing. A message that is handled queues answers, of which none
announces a session; and a table queues what it announces.
-/

namespace ReverseTunnel.Server

open Control
open Session (ConnId)
open Wire (Message)

variable {l l' : Link} {c d : ConnId}

/-! ## Outboxes -/

theorem length_outbox_move {e : LinkEvent} {fx : List LinkEffect} (hm : Link.Move l e l' fx) :
    l'.outbox.length ≤ l.outbox.length := by
  cases hm with
  | begins m rest bs _ _ houtbox | jams m rest error _ houtbox =>
    rw [houtbox]
    exact Nat.le_succ _
  | fails | givesUp => exact Nat.zero_le _
  | _ => exact Nat.le_refl _

theorem Action.outbox_allOnLink (xs : List Action) : ∀ l : Link,
    ∃ ms, (allOnLink l xs).outbox = l.outbox ++ ms ∧ ∀ m ∈ ms, .emit m ∈ xs := by
  induction xs with
  | nil => exact fun l => ⟨[], (List.append_nil _).symm, nofun⟩
  | cons x rest ih =>
    intro l
    obtain ⟨ms, houtbox, hms⟩ := ih (x.onLink l)
    have hrest : ∀ m ∈ ms, .emit m ∈ x :: rest := fun m hm => List.mem_cons_of_mem x (hms m hm)
    cases x with
    | emit m =>
      rw [allOnLink, houtbox]
      rcases Link.emitted_cases l m with ⟨-, hm⟩ | hm
      · refine ⟨m :: ms, ?_, ?_⟩
        · rw [onLink, hm, List.append_assoc]
          rfl
        · rintro k (_ | ⟨_, hk⟩)
          · exact List.mem_cons_self
          · exact hrest k hk
      · exact ⟨ms, by rw [onLink, hm]; rfl, hrest⟩
    | close | count _ | listen _ => exact ⟨ms, houtbox, hrest⟩

namespace Run

variable {r : Run} {e : Event} {x : Run × List Effect} {a : Seal.Aead}

/-- What waits to be written on a connection. -/
def outbox (r : Run) (c : ConnId) : List Message := ((r.link? c).map (·.outbox)).getD []

/-- What was added to the outbox of a connection. -/
def queuedOn (r r' : Run) (c : ConnId) : List Message := (r'.outbox c).drop (r.outbox c).length

theorem queuedOn_of_same {r' : Run} (h : r'.link? c = r.link? c) : r.queuedOn r' c = [] := by
  rw [queuedOn, outbox, outbox, h]
  exact List.drop_length

theorem queuedOn_of_length {r' : Run} (h : (r'.outbox c).length ≤ (r.outbox c).length) :
    r.queuedOn r' c = [] :=
  List.drop_eq_nil_of_le h

theorem queuedOn_of_append {r' : Run} {ms : List Message} (h : r'.outbox c = r.outbox c ++ ms) :
    r.queuedOn r' c = ms := by
  rw [queuedOn, h]
  exact List.drop_left

theorem outbox_of_link? (hl : r.link? c = some l) : r.outbox c = l.outbox := by
  rw [outbox, hl]
  rfl

/-- A step queues nothing on a connection that it is not about. -/
theorem queuedOn_elsewhere (ht : Turn a r e x) (habout : e.about? ≠ some c) :
    r.queuedOn x.1 c = [] := by
  cases ht with
  | connects peer =>
    apply queuedOn_of_length
    rw [outbox, link?_connect]
    cases hl : r.link? c with
    | some l => rw [Option.some_or, outbox, hl]
    | none =>
      -- a new link has an empty outbox
      rw [Option.none_or]
      split <;> exact Nat.zero_le _
  | rests _ _ _ hc =>
    apply queuedOn_of_same
    rw [(hc c).own, Option.map_id_apply]
  | moves d y l r' hl hc =>
    exact queuedOn_of_same (hc.others c fun h => habout (congrArg some h.symm))
  | handles d bind l l' m _ hl htake hc =>
    exact queuedOn_of_same (hc.others c fun h => habout (congrArg some h.symm))
  | announces _ d sessions _ he hc =>
    exact queuedOn_of_same (hc.others c fun h => habout (h ▸ Event.about?_of_ofProxy? he))

theorem queuedOn_link {y : LinkEvent} (ht : Turn a r (.link d y) x) : r.queuedOn x.1 c = [] := by
  by_cases hcd : d = c
  · subst hcd
    cases ht with
    | rests _ _ _ hc =>
      apply queuedOn_of_same
      rw [(hc d).own, Option.map_id_apply]
    | moves _ _ l r' hl hc =>
      apply queuedOn_of_length
      rw [outbox_of_link? (l := (l.step y).1) (by rw [hc.own, hl]; rfl), outbox_of_link? hl]
      exact length_outbox_move (Link.move l y)
    | announces _ _ _ _ he => cases he
  · exact queuedOn_elsewhere ht fun h => hcd (Option.some.inj h)

/-- A message that is handled queues what its handling emits. -/
theorem queuedOn_handle {bind : Binder} (ht : Turn a r (.handle d bind) x) {m : Message}
    (hm : m ∈ r.queuedOn x.1 c) : d = c ∧ ∃ l m' l', r.link? c = some l ∧
      l.take? = some (m', l') ∧
      .emit m ∈ (react r.options a bind r.now r.registry c m').2 := by
  by_cases hcd : d = c
  · subst hcd
    cases ht with
    | rests _ _ _ hc =>
      rw [queuedOn_of_same (by rw [(hc d).own, Option.map_id_apply])] at hm
      cases hm
    | handles _ _ l l' m' _ hl htake hc =>
      obtain ⟨ms, houtbox, hms⟩ :=
        Action.outbox_allOnLink (react r.options a bind r.now r.registry d m').2 l'
      obtain ⟨-, hl'⟩ := Link.take?_eq_some htake
      have hqueued : r.queuedOn x.1 d = ms := by
        apply queuedOn_of_append
        rw [outbox_of_link? (by rw [hc.own, hl]; rfl), houtbox, outbox_of_link? hl, hl']
      exact ⟨rfl, l, m', l', hl, htake, hms m (hqueued ▸ hm)⟩
    | announces _ _ _ _ he => cases he
  · rw [queuedOn_elsewhere ht fun h => hcd (Option.some.inj h)] at hm
    cases hm

theorem not_announced_react (o : Options) (a : Seal.Aead) (bind : Binder) (now : Nat)
    (reg : Registry) (c : ConnId) (m : Message) (session : UInt32) :
    .emit (.openDataConn session) ∉ (react o a bind now reg c m).2 := by
  intro h
  cases m with
  | auth token =>
    simp only [react, onAuth] at h
    split at h
    · simp [authVerdict] at h
    · split at h <;> simp [authVerdict] at h
  | heartbeat timestamp =>
    simp only [react, onHeartbeat] at h
    split at h <;> simp at h
  | openDataPort sealedRequest =>
    simp only [react, onOpenDataPort] at h
    split at h
    · simp [granted] at h
    · simp [refused] at h
  | _ => simp [react] at h

end Run

end ReverseTunnel.Server
