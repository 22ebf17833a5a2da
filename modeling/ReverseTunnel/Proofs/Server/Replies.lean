import ReverseTunnel.Proofs.Control.Writing
import ReverseTunnel.Proofs.Server.Conversation
import ReverseTunnel.Proofs.Server.Ownership

/-!
Who is authenticated on a server, and what each connection gets to read.

`record` is what arrived on a connection, which messages of it were handled and what was
put on its transport, up to a moment of a course.

What is proved (`answered_in_order`): a connection is authenticated exactly as long as it has not
finished and the last token that was handled on it is accepted. Messages are handled in the order
in which they arrived. And apart from announcements a connection gets the answers to a beginning
of what was handled, in order and in frames that can be read.

Nothing is assumed.

What is not said: that all answers get there. A writer that fails or whose time is up leaves some
of them behind (`Proofs.Server.Flushing`).
-/

namespace ReverseTunnel.Server

open Control
open Session (ConnId IdSource)
open Wire (Message messagesIn draw)

/-! ## Records -/

/-- What happened on a connection so far. -/
structure Record where
  /-- What arrived. -/
  heard : Bytes := []
  /-- The messages that were handled. -/
  handled : List Message := []
  /-- What was put on the transport. -/
  sent : Bytes := []

/-- What an effect does on the link of a connection. -/
def Effect.onLink? (c : ConnId) : Effect → Option LinkEffect
  | .link d y => if d = c then some y else none
  | _ => none

/-- How a server keeps the link of a connection. -/
def carrier (c : ConnId) : Carrier Run Event Effect where
  link? r := r.link? c
  event := .link c
  event_inj h := by
    cases h
    rfl
  effect := .link c
  onLink? := Effect.onLink? c
  onLink?_eq_some {x y} := by
    cases x with
    | link d z => by_cases hd : d = c <;> simp [Effect.onLink?, hd]
    | table _ _ | count _ => simp [Effect.onLink?]

/-- The bytes that effects put on the transport of a connection. -/
def sentOn (c : ConnId) (fx : List Effect) : Bytes := (carrier c).sent fx

namespace Run

/-- What arrives on a connection with an event. -/
def heardOn (r : Run) (c : ConnId) : Event → Bytes
  | .link d y => if d = c then ((r.link? c).map (·.heardAt y)).getD [] else []
  | _ => []

/-- The message of a connection that is handled with an event. -/
def handledOn (r : Run) (c : ConnId) : Event → List Message
  | .handle d _ => if d = c then (((r.link? c).bind Link.take?).map (·.1)).toList else []
  | _ => []

end Run

/-- What happened on a connection, with what an event does added. -/
def Record.after (k : Record) (r : Run) (c : ConnId) (e : Event) (fx : List Effect) : Record where
  heard := k.heard ++ r.heardOn c e
  handled := k.handled ++ r.handledOn c e
  sent := k.sent ++ sentOn c fx

/-- What happened on a connection before a moment. -/
def record {a : Seal.Aead} {o : Options} {ids : IdSource} (course : Course (Run.step a) (Run.start o ids))
    (c : ConnId) : Nat → Record
  | 0 => {}
  | n + 1 => (record course c n).after (course.state n) c (course.happens n) (course.effectsAt n)

variable {a : Seal.Aead} {o : Options} {r : Run} {e : Event} {x : Run × List Effect} {c d : ConnId}
  {k : Record} {fx : List Effect} {l l' : Link} {m : Message} {reg : Registry} {f : Link → Link}

theorem sentOn_map_self (c : ConnId) (ys : List LinkEffect) :
    sentOn c (ys.map (.link c)) = Link.sentBytes ys := (carrier c).sent_effects ys

theorem sentOn_of_counts (h : ∀ y, Effect.link c y ∈ fx → ∃ n, y = .count n) : sentOn c fx = [] :=
  (carrier c).sent_of_counts h

theorem sentOn_map_other (h : d ≠ c) (ys : List LinkEffect) : sentOn c (ys.map (.link d)) = [] :=
  sentOn_of_counts (by simp [h])

theorem sentOn_of_quiet (h : ∀ d y, Effect.link d y ∈ fx → ∃ n, y = .count n) : sentOn c fx = [] :=
  sentOn_of_counts (h c)

theorem Record.after_self (hheard : r.heardOn c e = []) (hhandled : r.handledOn c e = [])
    (hsent : sentOn c fx = []) : k.after r c e fx = k := by
  rw [after, hheard, hhandled, hsent]
  simp only [List.append_nil]

/-! ## What a record says about a link -/

/-- The record of a connection agrees with its link and with what is remembered of it. -/
structure Kept (o : Options) (r : Run) (c : ConnId) (k : Record) : Prop where
  absent : r.link? c = none → k = {}
  reads : ∀ l, r.link? c = some l → l.Reads k.heard k.handled
  dialogue : ∀ l, r.link? c = some l → Dialogue o l k.handled k.sent
  standing : r.registry.isAuthenticated c = true ↔ r.Serves c ∧ admitted o k.handled = true

theorem kept_start (o : Options) (ids : IdSource) (c : ConnId) :
    Kept o.normalize (Run.start o ids) c {} where
  absent _ := rfl
  reads l hl := by cases hl
  dialogue l hl := by cases hl
  standing := ⟨fun h => (by cases h), fun h => (by obtain ⟨⟨l, hl, -⟩, -⟩ := h; cases hl)⟩

theorem Kept.of_same {r' : Run} (h : Kept o r c k) (hl : r'.link? c = r.link? c)
    (ha : r'.registry.isAuthenticated c = r.registry.isAuthenticated c) : Kept o r' c k where
  absent hnone := h.absent (hl ▸ hnone)
  reads l hlink := h.reads l (hl ▸ hlink)
  dialogue l hlink := h.dialogue l (hl ▸ hlink)
  standing := by
    rw [ha, h.standing, Run.Serves, Run.Serves, hl]

theorem serves_iff (hl : r.link? c = some l) : r.Serves c ↔ l.stage ≠ .finished := by
  constructor
  · rintro ⟨l', hl', hs⟩
    rw [hl] at hl'
    cases hl'
    exact hs
  · exact fun hs => ⟨l, hl, hs⟩

theorem Kept.of_new {r' : Run} (h : Kept o r c k) (hnone : r.link? c = none)
    (hnew : ∀ l, r'.link? c = some l → l = {})
    (ha : r'.registry.isAuthenticated c = r.registry.isAuthenticated c) : Kept o r' c k := by
  obtain rfl := h.absent hnone
  refine ⟨fun _ => rfl, ?_, ?_, ?_⟩
  · intro l hlink
    rw [hnew l hlink]
    exact Link.reads_start
  · intro l hlink
    rw [hnew l hlink]
    exact dialogue_start o
  · have hnot : ¬ r.registry.isAuthenticated c = true := by
      intro hauth
      obtain ⟨⟨l, hlink, -⟩, -⟩ := h.standing.mp hauth
      simp [hnone] at hlink
    rw [ha]
    exact ⟨fun hauth => absurd hauth hnot, fun ⟨_, hadmitted⟩ => by cases hadmitted⟩

theorem Kept.moves {y : LinkEvent} {r' : Run} (h : Kept o r c k) (hl : r.link? c = some l)
    (hc : Run.Confined c (fun _ => (l.step y).1)
      (Run.remembered r.registry c l (l.step y).1) r (r', [])) :
    Kept o r' c (k.after r c (.link c y) ((l.step y).2.map (.link c))) := by
  have hlink : r'.link? c = some (l.step y).1 := by rw [hc.own, hl]; rfl
  have hmove := Link.move l y
  have hheard : r.heardOn c (.link c y) = l.heardAt y := by simp [Run.heardOn, hl]
  have hhandled : r.handledOn c (.link c y) = [] := rfl
  rw [Record.after, hheard, hhandled, sentOn_map_self, List.append_nil]
  refine ⟨fun hnone => by simp [hlink] at hnone, ?_, ?_, ?_⟩
  · intro l' hl'
    rw [hlink] at hl'
    cases hl'
    exact (h.reads l hl).move hmove
  · intro l' hl'
    rw [hlink] at hl'
    cases hl'
    exact (h.dialogue l hl).move hmove
  · have hregistry := hc.registry
    have hstanding := h.standing
    rw [serves_iff hl] at hstanding
    rw [serves_iff hlink]
    unfold Run.remembered at hregistry
    split at hregistry
    · rename_i hfinish
      have hnot : r'.registry.isAuthenticated c = false := by
        show Registry.isAuthenticated r'.registry c = false
        rw [hregistry]
        show (r.registry.dismiss c).isAuthenticated c = false
        rw [Registry.isAuthenticated_dismiss]
        simp
      simp [hnot, hfinish.2]
    · rename_i hgoes
      -- a link that does not finish now has finished before or serves still
      have hstage : (l.step y).1.stage ≠ .finished ↔ l.stage ≠ .finished :=
        ⟨fun hs hs' => hs (Link.finished_move hs' hmove), fun hs hs' => hgoes ⟨hs, hs'⟩⟩
      rw [hstage, ← hstanding]
      exact iff_of_eq (congrArg (fun reg => reg.isAuthenticated c = true) hregistry)

theorem Kept.handles {bind : Binder} (h : Kept r.options r c k) (hsound : l.Sound)
    (hl : r.link? c = some l) (ht : l.take? = some (m, l'))
    (hc : Run.Confined c
      (fun _ => Action.allOnLink l' (react r.options a bind r.now r.registry c m).2)
      (react r.options a bind r.now r.registry c m).1 r x) :
    Kept r.options x.1 c (k.after r c (.handle c bind) x.2) := by
  have hlink : x.1.link? c =
      some (Action.allOnLink l' (react r.options a bind r.now r.registry c m).2) := by
    rw [hc.own, hl]
    rfl
  have hheard : r.heardOn c (.handle c bind) = [] := rfl
  have hhandled : r.handledOn c (.handle c bind) = [m] := by simp [Run.handledOn, hl, ht]
  have hopen := Link.stage_of_take? hsound ht
  have hserves : l.stage ≠ .finished := by simp [hopen]
  have haside := Action.aside_allOnLink (react r.options a bind r.now r.registry c m).2 l'
  obtain ⟨-, hl'⟩ := Link.take?_eq_some ht
  have hstage : l'.stage = l.stage := by rw [hl']
  -- what is remembered is what the tokens handled so far come to
  have hauth : r.registry.isAuthenticated c = admitted r.options k.handled := by
    rw [Bool.eq_iff_iff, h.standing, serves_iff hl]
    exact and_iff_right hserves
  rw [Record.after, hheard, hhandled, sentOn_of_quiet hc.quiet, List.append_nil, List.append_nil]
  refine ⟨fun hnone => by simp [hlink] at hnone, ?_, ?_, ?_⟩
  · intro l'' hl''
    rw [hlink] at hl''
    cases hl''
    exact ((h.reads l hl).take? ht).aside haside
  · intro l'' hl''
    rw [hlink] at hl''
    cases hl''
    obtain ⟨reply, goesOn, hanswer, hutters⟩ :=
      utters_react r.options a bind r.now r.registry c m
    exact ((h.dialogue l hl).take? ht).handle hutters fun _ => hauth ▸ hanswer
  · have hserves' : x.1.Serves c := ⟨_, hlink, by rw [haside.stage, hstage]; exact hserves⟩
    rw [hc.registry, (recorded_react r.options a bind r.now r.registry c m).isAuthenticated, hauth,
      admitted_snoc]
    exact (and_iff_right hserves').symm

theorem Kept.announces {sessions : List UInt32} (h : Kept o r c k)
    (hc : Run.Confined c (·.emitAll (Run.announcements sessions)) r.registry r x) :
    Kept o x.1 c k := by
  have hlink : ∀ l', x.1.link? c = some l' →
      ∃ l, r.link? c = some l ∧ l' = l.emitAll (Run.announcements sessions) := by
    intro l' hl'
    rw [hc.own] at hl'
    obtain ⟨l, hl, rfl⟩ := Option.map_eq_some_iff.mp hl'
    exact ⟨l, hl, rfl⟩
  have hserves : x.1.Serves c ↔ r.Serves c := by
    unfold Run.Serves
    simp only [hc.own, Option.map_eq_some_iff]
    constructor
    · rintro ⟨_, ⟨l, hl, rfl⟩, hs⟩
      exact ⟨l, hl, (Link.aside_emitAll _ l).stage ▸ hs⟩
    · rintro ⟨l, hl, hs⟩
      exact ⟨_, ⟨l, hl, rfl⟩, (Link.aside_emitAll _ l).stage ▸ hs⟩
  refine ⟨?_, ?_, ?_, ?_⟩
  · intro hnone
    rw [hc.own, Option.map_eq_none_iff] at hnone
    exact h.absent hnone
  · intro l' hl'
    obtain ⟨l, hl, rfl⟩ := hlink l' hl'
    exact (h.reads l hl).aside (Link.aside_emitAll _ l)
  · intro l' hl'
    obtain ⟨l, hl, rfl⟩ := hlink l' hl'
    exact (h.dialogue l hl).announce sessions l
  · rw [hc.registry, hserves]
    exact h.standing

/-! ## What happens elsewhere -/

theorem heardOn_of_about? (h : e.about? ≠ some c) : r.heardOn c e = [] ∧ r.handledOn c e = [] := by
  cases e with
  | link d y =>
    have hd : d ≠ c := fun hd => h (congrArg some hd)
    exact ⟨if_neg hd, rfl⟩
  | handle d bind =>
    have hd : d ≠ c := fun hd => h (congrArg some hd)
    exact ⟨rfl, if_neg hd⟩
  | _ => exact ⟨rfl, rfl⟩

theorem heardOn_of_idle (h : r.Idle e) : r.heardOn c e = [] ∧ r.handledOn c e = [] := by
  by_cases hc : e.about? = some c
  · cases e with
    | link d y =>
      cases hc
      have hnone : r.link? c = none := h
      simp [Run.heardOn, Run.handledOn, hnone]
    | handle d bind =>
      cases hc
      have hnone : (r.link? c).bind Link.take? = none := h
      simp [Run.heardOn, Run.handledOn, hnone]
    | _ => exact ⟨rfl, rfl⟩
  · exact heardOn_of_about? hc

theorem heardOn_of_ofProxy? (h : e.ofProxy? = some d) : r.heardOn c e = [] ∧ r.handledOn c e = [] := by
  cases e with
  | link _ _ | handle _ _ => cases h
  | _ => exact ⟨rfl, rfl⟩

/-- An event elsewhere leaves a link and its record as they are, or the link is new. -/
theorem link?_elsewhere (ht : Run.Turn a r e x) (habout : e.about? ≠ some c) :
    k.after r c e x.2 = k ∧ (x.1.link? c = r.link? c ∨
      r.link? c = none ∧ ∀ l, x.1.link? c = some l → l = {}) := by
  obtain ⟨hheard, hhandled⟩ := heardOn_of_about? (r := r) habout
  cases ht with
  | connects peer =>
    refine ⟨Record.after_self hheard hhandled rfl, ?_⟩
    rw [Run.link?_connect]
    cases r.link? c with
    | some l => exact .inl (Option.some_or ..)
    | none =>
      refine .inr ⟨rfl, fun l hl => ?_⟩
      rw [Option.none_or] at hl
      split at hl
      · cases hl
        rfl
      · cases hl
  | rests _ _ _ hc =>
    refine ⟨Record.after_self hheard hhandled (sentOn_of_quiet (hc c).quiet), .inl ?_⟩
    rw [(hc c).own, Option.map_id_apply]
  | moves d y l r' hl hc =>
    have hd : d ≠ c := fun hd => habout (congrArg some hd)
    exact ⟨Record.after_self hheard hhandled (sentOn_map_other hd _), .inl (hc.others c hd.symm)⟩
  | handles d bind l l' m _ hl htake hc =>
    have hd : d ≠ c := fun hd => habout (congrArg some hd)
    exact ⟨Record.after_self hheard hhandled (sentOn_of_quiet hc.quiet),
      .inl (hc.others c hd.symm)⟩
  | announces _ d sessions _ he hc =>
    have hd : d ≠ c := fun hd => habout (hd ▸ Event.about?_of_ofProxy? he)
    exact ⟨Record.after_self hheard hhandled (sentOn_of_quiet hc.quiet),
      .inl (hc.others c hd.symm)⟩

theorem Kept.elsewhere (h : Kept r.options r c k) (ht : Run.Turn a r e x)
    (habout : e.about? ≠ some c) : Kept r.options x.1 c (k.after r c e x.2) := by
  obtain ⟨hauth, -, -⟩ := ht.apart habout
  obtain ⟨hrecord, hsame | ⟨hnone, hnew⟩⟩ := link?_elsewhere (k := k) ht habout
  · rw [hrecord]
    exact h.of_same hsame hauth
  · rw [hrecord]
    exact h.of_new hnone hnew hauth

/-- Whatever an event does, the record of a connection stays right. -/
theorem Kept.turn (h : Kept r.options r c k) (horderly : r.Orderly) (ht : Run.Turn a r e x) :
    Kept r.options x.1 c (k.after r c e x.2) := by
  -- an event is about this connection or confined to another
  by_cases habout : e.about? = some c
  · cases ht with
    | connects peer => cases habout
    | rests _ _ hidle hc =>
      obtain ⟨hheard, hhandled⟩ := heardOn_of_idle (c := c) hidle
      rw [Record.after_self hheard hhandled (sentOn_of_quiet (hc c).quiet)]
      apply h.of_same
      · rw [(hc c).own, Option.map_id_apply]
      · rw [(hc c).registry]
    | moves d y l r' hl hc =>
      cases habout
      exact h.moves hl hc
    | handles d bind l l' m _ hl htake hc =>
      cases habout
      exact h.handles (horderly.links c l hl) hl htake hc
    | announces _ d sessions _ he hc =>
      rw [Event.about?_of_ofProxy? he] at habout
      cases habout
      obtain ⟨hheard, hhandled⟩ := heardOn_of_ofProxy? (r := r) (c := c) he
      rw [Record.after_self hheard hhandled (sentOn_of_quiet hc.quiet)]
      exact h.announces hc
  · exact h.elsewhere ht habout

/-! ## At every moment -/

section Moments

variable {ids : IdSource} (course : Course (Run.step a) (Run.start o ids))

theorem options_eq (n : Nat) : (course.state n).options = o.normalize :=
  course.always (P := fun r => r.options = o.normalize) rfl
    (fun r e h => (Run.turn a r e).options.trans h) n

theorem kept (c : ConnId) : ∀ n, Kept o.normalize (course.state n) c (record course c n)
  | 0 => kept_start o ids c
  | n + 1 => by
    have hn := kept c n
    rw [← options_eq course n] at hn ⊢
    exact hn.turn (Run.orderly course n) (Run.turn a _ _)

end Moments

theorem admits_iff (o : Options) (token : String) :
    o.normalize.admits token = true ↔ Text.trim o.authToken = "" ∨ token = o.authToken := by
  have hsame : o.normalize.admits token = o.admits token := by
    unfold Options.normalize
    split <;> rfl
  rw [hsame, Options.admits, Bool.or_eq_true, Text.isBlankText_iff, beq_iff_eq]

/-- Of what a dialogue puts on the transport, complete frames that announce no session are
the answers to a beginning of what was handled. -/
theorem Dialogue.drawn {handled : List Message} {sent : Bytes} (h : Dialogue o l handled sent) :
    (∃ ms replies goesOn, ms <+: handled ∧ Conversation o ms replies goesOn ∧
        (draw sent).frames.filter (fun f => decide (f.kind ≠ .openDataConn)) =
          replies.map Message.frame) ∧
      (draw sent).failure = none := by
  obtain ⟨begun, accepted, ms, goesOn, hw, ht⟩ := h
  obtain ⟨⟨spoken, hspoken, hframes⟩, hfailure⟩ := hw.drawn
  obtain ⟨ms', goesOn', hms', hc⟩ := ht.answers.beginning (withoutAnnouncements spoken)
    (hspoken.filter _)
  refine ⟨⟨ms', _, goesOn', hms'.trans ht.order, hc, ?_⟩, hfailure⟩
  rw [hframes, List.filter_map]
  rfl

/-- At every moment of every course and for every connection: it is authenticated exactly
if it has not finished and the last token handled on it is accepted; what was handled on
it is a beginning of what it sent; and, announcements aside, what it was sent are the
answers to a beginning of what was handled, none after a message that ends the
conversation. -/
theorem answered_in_order {ids : IdSource} (course : Course (Run.step a) (Run.start o ids))
    (c : ConnId) (n : Nat) :
    ((course.state n).registry.isAuthenticated c = true ↔
      (course.state n).Serves c ∧ ∃ token, latestToken? (record course c n).handled = some token ∧
        (Text.trim o.authToken = "" ∨ token = o.authToken)) ∧
    (record course c n).handled <+: messagesIn (record course c n).heard ∧
    (∃ ms replies goesOn, ms <+: (record course c n).handled ∧
      Conversation o.normalize ms replies goesOn ∧
      (draw (record course c n).sent).frames.filter (fun f => decide (f.kind ≠ .openDataConn)) =
        replies.map Message.frame) ∧
    (draw (record course c n).sent).failure = none := by
  have h := kept course c n
  refine ⟨?_, ?_⟩
  · rw [h.standing]
    apply and_congr_right
    intro _
    rw [admitted, Option.any_eq_true]
    simp only [admits_iff]
  · cases hl : (course.state n).link? c with
    | none =>
      rw [h.absent hl]
      exact ⟨List.nil_prefix, (dialogue_start o.normalize).drawn⟩
    | some l =>
      have hread := (h.reads l hl).isPrefix
      exact ⟨(List.prefix_append _ _).trans hread, (h.dialogue l hl).drawn⟩

end ReverseTunnel.Server
