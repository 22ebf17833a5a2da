import ReverseTunnel.Proofs.Control.Carrying
import ReverseTunnel.Proofs.Server.Connections

/-!
What a server answers.

`Answer` says what is answered to one message and whether the connection goes on after
it, and `Conversation` to several in order. A conversation ends with the first message
after which the connection does not go on. What a link accepts, announcements aside, are
the answers of a conversation about the messages that were handled (`Talks`): about all
of them while the link is not closed, and about a beginning of them from then on.
-/

namespace ReverseTunnel.Server

open Control
open Session (ConnId)
open Wire (Message)

/-! ## Answers -/

/-- The token of a message that presents one. -/
def token? : Message → Option String
  | .auth token => some token
  | _ => none

/-- The token that was presented last. -/
def latestToken? : List Message → Option String
  | [] => none
  | m :: rest => (latestToken? rest).or (token? m)

theorem latestToken?_snoc (ms : List Message) (m : Message) :
    latestToken? (ms ++ [m]) = (token? m).or (latestToken? ms) := by
  induction ms with
  | nil => simp [latestToken?]
  | cons k rest ih =>
    rw [List.cons_append, latestToken?, ih, latestToken?, Option.or_assoc]

/-- Whether the token that was presented last is accepted. -/
def admitted (o : Options) (ms : List Message) : Bool := (latestToken? ms).any o.admits

theorem admitted_snoc (o : Options) (ms : List Message) (m : Message) :
    admitted o (ms ++ [m]) = ((token? m).map o.admits).getD (admitted o ms) := by
  rw [admitted, latestToken?_snoc]
  cases token? m <;> rfl

theorem Recorded.isAuthenticated {o : Options} {a : Seal.Aead} {bind : Binder} {now : Nat}
    {reg reg' : Registry} {c : ConnId} {m : Message} (h : Recorded o a bind now reg c m reg') :
    reg'.isAuthenticated c = ((token? m).map o.admits).getD (reg.isAuthenticated c) := by
  cases h with
  | admits token h =>
    rw [Registry.isAuthenticated_authenticate]
    simp [token?, h]
  | rejects token h =>
    rw [Registry.isAuthenticated_dismiss]
    simp [token?, h]
  | grants sealedRequest p => rfl
  | keeps _ h =>
    have hnone : token? m = none := by
      cases m with
      | auth token => exact absurd rfl (h token)
      | _ => rfl
    rw [hnone]
    rfl

/-- What is answered to a message and whether the connection goes on after it. -/
inductive Answer (o : Options) (authenticated : Bool) : Message → List Message → Bool → Prop
  | accepts (token : String) (h : o.admits token = true) :
      Answer o authenticated (.auth token) [authVerdict true] true
  | rejects (token : String) (h : o.admits token = false) :
      Answer o authenticated (.auth token) [authVerdict false] (!o.closeOnAuthFailure)
  | echoes (timestamp serverTime : UInt64) (h : authenticated = true) :
      Answer o authenticated (.heartbeat timestamp) [.heartbeatAck timestamp serverTime] true
  | dropsStray (timestamp : UInt64) (h : authenticated = false) :
      Answer o authenticated (.heartbeat timestamp) [] false
  | grants (sealedRequest : Bytes) (port : UInt16) (h : authenticated = true) :
      Answer o authenticated (.openDataPort sealedRequest) [granted o port] true
  | refuses (sealedRequest : Bytes) (error : ProvisionError) :
      Answer o authenticated (.openDataPort sealedRequest) [refused error] false
  | passesOver (m : Message) (hauth : m.kind ≠ .auth) (hbeat : m.kind ≠ .heartbeat)
      (hopen : m.kind ≠ .openDataPort) : Answer o authenticated m [] true

/-- Messages, the answers to them in order, and whether the connection goes on. The next
message is answered only if it does, and as of an authenticated connection if the token
presented last was accepted. -/
inductive Conversation (o : Options) : List Message → List Message → Bool → Prop
  | nil : Conversation o [] [] true
  | snoc {ms replies reply : List Message} {m : Message} {goesOn : Bool}
      (h : Conversation o ms replies true) (ha : Answer o (admitted o ms) m reply goesOn) :
      Conversation o (ms ++ [m]) (replies ++ reply) goesOn

variable {o : Options} {authenticated goesOn : Bool} {m : Message}
  {ms reply replies handled begun accepted : List Message}

/-- Messages without those that announce sessions. -/
def withoutAnnouncements (ms : List Message) : List Message :=
  ms.filter fun m => decide (m.kind ≠ .openDataConn)

theorem withoutAnnouncements_append (ms ms' : List Message) :
    withoutAnnouncements (ms ++ ms') = withoutAnnouncements ms ++ withoutAnnouncements ms' :=
  List.filter_append ..

theorem Answer.length_le (h : Answer o authenticated m reply goesOn) : reply.length ≤ 1 := by
  cases h <;> simp

/-- No announcement is an answer. -/
theorem Answer.withoutAnnouncements (h : Answer o authenticated m reply goesOn) :
    withoutAnnouncements reply = reply := by
  cases h <;> rfl

theorem Conversation.beginning (h : Conversation o ms replies goesOn) :
    ∀ rs, rs <+: replies → ∃ ms' goesOn', ms' <+: ms ∧ Conversation o ms' rs goesOn' := by
  induction h with
  | nil =>
    intro rs hrs
    rw [List.prefix_nil.mp hrs]
    exact ⟨[], true, List.nil_prefix, .nil⟩
  | @snoc ms replies reply m goesOn h ha ih =>
    intro rs hrs
    have hshorter : rs <+: replies → ∃ ms' goesOn', ms' <+: ms ++ [m] ∧ Conversation o ms' rs goesOn' := by
      intro hrs
      obtain ⟨ms', goesOn', hms, hc⟩ := ih rs hrs
      exact ⟨ms', goesOn', hms.trans (List.prefix_append _ _), hc⟩
    -- at most one answer to a message, so nothing ends within its answers
    match reply, ha.length_le with
    | [], _ => exact hshorter (List.append_nil replies ▸ hrs)
    | [answer], _ =>
      rcases List.prefix_concat_iff.mp hrs with rfl | hrs
      · exact ⟨ms ++ [m], goesOn, List.prefix_rfl, .snoc h ha⟩
      · exact hshorter hrs

/-! ## What a message makes the server say -/

/-- Actions emit the given messages, at most one, and close the connection at their end
unless it goes on. -/
inductive Utters : List Action → List Message → Bool → Prop
  | nothing : Utters [] [] true
  | close : Utters [.close] [] false
  | count {xs : List Action} {ms : List Message} {goesOn : Bool} (n : Count)
      (h : Utters xs ms goesOn) : Utters (.count n :: xs) ms goesOn
  | listen {xs : List Action} {ms : List Message} {goesOn : Bool} (p : Registration)
      (h : Utters xs ms goesOn) : Utters (.listen p :: xs) ms goesOn
  | emit {xs : List Action} {goesOn : Bool} (m : Message) (h : Utters xs [] goesOn) :
      Utters (.emit m :: xs) [m] goesOn

theorem utters_react (o : Options) (a : Seal.Aead) (bind : Binder) (now : Nat) (reg : Registry)
    (c : ConnId) (m : Message) : ∃ reply goesOn, Answer o (reg.isAuthenticated c) m reply goesOn ∧
      Utters (react o a bind now reg c m).2 reply goesOn := by
  cases m with
  | auth token =>
    simp only [react, onAuth]
    split
    · rename_i h
      exact ⟨_, _, .accepts token h, .emit _ .nothing⟩
    · rename_i h
      refine ⟨_, _, .rejects token (by simpa using h), ?_⟩
      cases o.closeOnAuthFailure with
      | false => exact .emit _ .nothing
      | true => exact .emit _ .close
  | heartbeat timestamp =>
    simp only [react, onHeartbeat]
    split
    · rename_i h
      exact ⟨_, _, .echoes timestamp _ h, .emit _ .nothing⟩
    · rename_i h
      exact ⟨_, _, .dropsStray timestamp (by simpa using h), .close⟩
  | openDataPort sealedRequest =>
    simp only [react, onOpenDataPort]
    split
    · rename_i p hp
      obtain ⟨q, hvalid, -, -⟩ := valid_of_provision hp
      exact ⟨_, _, .grants sealedRequest p.bound.port hvalid.authenticated,
        .emit _ (.listen _ .nothing)⟩
    · rename_i error herror
      exact ⟨_, _, .refuses sealedRequest error, .count _ (.emit _ .close)⟩
  | authAck _ _ | heartbeatAck _ _ | openDataPortAck _ _ _ _ | openDataConn _ | openDataConnAck _ _ =>
    refine ⟨_, _, .passesOver _ ?_ ?_ ?_, .nothing⟩
    all_goals simp [Message.kind]

/-! ## What the link accepts of it -/

variable {l l' : Link} {sent : Bytes} {xs : List Action}

theorem writes_of_closed (xs : List Action) : ∀ l : Link, l.closed = true →
    l.Writes begun accepted sent →
    (Action.allOnLink l xs).closed = true ∧ (Action.allOnLink l xs).Writes begun accepted sent := by
  induction xs with
  | nil => exact fun l hclosed h => ⟨hclosed, h⟩
  | cons x rest ih =>
    intro l hclosed h
    apply ih (x.onLink l) ((Action.aside_onLink l x).closed hclosed)
    cases x with
    | emit m =>
      rcases h.emitted m with ⟨hopen, -, -⟩ | ⟨-, h'⟩
      · simp [hclosed] at hopen
      · exact h'
    | close => exact ⟨h.fits, h.order, h.onWire, h.going⟩
    | count _ | listen _ => exact h

/-- A link that is not closed accepts all that is uttered, and is closed if the connection
does not go on; or it accepts nothing and is closed. -/
theorem writes_of_utters (hu : Utters xs reply goesOn) : ∀ (l : Link) (accepted : List Message),
    l.Writes begun accepted sent →
    ((Action.allOnLink l xs).Writes begun (accepted ++ reply) sent ∧
        ((Action.allOnLink l xs).closed = false → goesOn = true)) ∨
      ((Action.allOnLink l xs).Writes begun accepted sent ∧
        (Action.allOnLink l xs).closed = true) := by
  induction hu with
  | nothing =>
    intro l accepted h
    rw [List.append_nil]
    exact .inl ⟨h, fun _ => rfl⟩
  | close =>
    intro l accepted h
    exact .inr ⟨⟨h.fits, h.order, h.onWire, h.going⟩, rfl⟩
  | count n _ ih => exact ih
  | listen p _ ih => exact ih
  | @emit xs goesOn m _ ih =>
    intro l accepted h
    rcases h.emitted m with ⟨-, -, hm⟩ | ⟨hclosed, hm⟩
    · left
      rcases ih (l.emitted m) (accepted ++ [m]) hm with ⟨h', hgoes⟩ | ⟨h', hclosed⟩
      · rw [List.append_nil] at h'
        exact ⟨h', hgoes⟩
      · refine ⟨h', ?_⟩
        intro hopen
        change (Action.allOnLink (l.emitted m) xs).closed = false at hopen
        simp [hclosed] at hopen
    · right
      obtain ⟨hclosed', h'⟩ := writes_of_closed xs (l.emitted m) hclosed hm
      exact ⟨h', hclosed'⟩

/-! ## The conversation on a link -/

/-- What was accepted, announcements aside, answers the messages that were handled: all of
them, if the link is not closed. -/
structure Talks (o : Options) (l : Link) (handled accepted ms : List Message) (goesOn : Bool) :
    Prop where
  answers : Conversation o ms (withoutAnnouncements accepted) goesOn
  order : ms <+: handled
  going : l.closed = false → ms = handled ∧ goesOn = true

/-- The writer's account of a link and the conversation on it. -/
def Dialogue (o : Options) (l : Link) (handled : List Message) (sent : Bytes) : Prop :=
  ∃ begun accepted ms goesOn, l.Writes begun accepted sent ∧ Talks o l handled accepted ms goesOn

theorem dialogue_start (o : Options) : Dialogue o {} [] [] :=
  ⟨[], [], [], true, Link.writes_start, .nil, List.nil_prefix, fun _ => ⟨rfl, rfl⟩⟩

theorem Dialogue.move {e : LinkEvent} {fx : List LinkEffect} (h : Dialogue o l handled sent)
    (hm : Link.Move l e l' fx) : Dialogue o l' handled (sent ++ Link.sentBytes fx) := by
  obtain ⟨begun, accepted, ms, goesOn, hw, ht⟩ := h
  obtain ⟨begun', hw'⟩ := hw.move hm
  refine ⟨begun', accepted, ms, goesOn, hw', ht.answers, ht.order, fun hopen => ht.going ?_⟩
  rw [Bool.eq_false_iff]
  intro hclosed
  simp [Link.closed_move hclosed hm] at hopen

theorem Dialogue.take? (h : Dialogue o l handled sent) (ht : l.take? = some (m, l')) :
    Dialogue o l' handled sent := by
  obtain ⟨begun, accepted, ms, goesOn, hw, htalks⟩ := h
  obtain ⟨-, hl'⟩ := Link.take?_eq_some ht
  rw [hl']
  exact ⟨begun, accepted, ms, goesOn, ⟨hw.fits, hw.order, hw.onWire, hw.going⟩, htalks.answers,
    htalks.order, htalks.going⟩

theorem Dialogue.handle (h : Dialogue o l handled sent) (hu : Utters xs reply goesOn)
    (ha : l.closed = false → Answer o (admitted o handled) m reply goesOn) :
    Dialogue o (Action.allOnLink l xs) (handled ++ [m]) sent := by
  obtain ⟨begun, accepted, ms, goesOn', hw, ht⟩ := h
  have horder : ms <+: handled ++ [m] := ht.order.trans (List.prefix_append _ _)
  -- a closed link accepts no answer any more, and handling goes on without
  by_cases hclosed : l.closed = true
  · obtain ⟨hclosed', hw'⟩ := writes_of_closed xs l hclosed hw
    exact ⟨begun, accepted, ms, goesOn', hw', ht.answers, horder,
      fun hopen => absurd hclosed' (by simp [hopen])⟩
  · rw [Bool.not_eq_true] at hclosed
    obtain ⟨rfl, rfl⟩ := ht.going hclosed
    have hanswer := ha hclosed
    rcases writes_of_utters hu l accepted hw with ⟨hw', hgoes⟩ | ⟨hw', hclosed'⟩
    · refine ⟨begun, accepted ++ reply, ms ++ [m], goesOn, hw', ?_, List.prefix_rfl,
        fun hopen => ⟨rfl, hgoes hopen⟩⟩
      rw [withoutAnnouncements_append, hanswer.withoutAnnouncements]
      exact .snoc ht.answers hanswer
    · exact ⟨begun, accepted, ms, true, hw', ht.answers, horder,
        fun hopen => absurd hclosed' (by simp [hopen])⟩

theorem Dialogue.emitted_openDataConn (h : Dialogue o l handled sent) (session : UInt32) :
    Dialogue o (l.emitted (.openDataConn session)) handled sent := by
  obtain ⟨begun, accepted, ms, goesOn, hw, ht⟩ := h
  rcases hw.emitted (.openDataConn session) with ⟨hopen, -, hw'⟩ | ⟨hclosed, hw'⟩
  · refine ⟨begun, accepted ++ [.openDataConn session], ms, goesOn, hw', ?_, ht.order,
      fun _ => ht.going hopen⟩
    -- an announcement is accepted, and no part of the conversation
    have hnone : withoutAnnouncements [.openDataConn session] = [] := rfl
    rw [withoutAnnouncements_append, hnone, List.append_nil]
    exact ht.answers
  · exact ⟨begun, accepted, ms, goesOn, hw', ht.answers, ht.order,
      fun hopen => absurd hclosed (by simp [hopen])⟩

/-- Announcements are no part of a conversation. -/
theorem Dialogue.announce (sessions : List UInt32) : ∀ l : Link, Dialogue o l handled sent →
    Dialogue o (l.emitAll (Run.announcements sessions)) handled sent := by
  induction sessions with
  | nil => exact fun l h => h
  | cons session rest ih => exact fun l h => ih _ (h.emitted_openDataConn session)

end ReverseTunnel.Server
