import ReverseTunnel.Proofs.Server.Flushing
import ReverseTunnel.Proofs.Server.NameContest

/-!
What is heard of a connection after it was closed.

What is proved (`heard_until_drained`):
1. A closed connection is told nothing more, and whoever comes in at its proxy is dropped.
2. But what was read on it is handled as if it were open (`registry_handle_close`): a token that
   waits behind the message for which it was closed authenticates it, and a request that waits
   there registers a proxy. With `remembered_after_close` there is a course in which both happen.
3. That ends when everything read is handled (`Drained`), and when the connection has finished
   nothing is remembered of it.

Nothing is assumed.

What is not said: how long it takes until then, which is a matter of the handler
(`Proofs.Control.Dispatch`).
-/

namespace ReverseTunnel.Server

open Control
open Session (ConnId IdSource)
open Wire (Message Frame)

namespace Run

variable {a : Seal.Aead} {r : Run} {c : ConnId} {e : Event} {x : Run × List Effect}

/-- Whoever comes in at the proxy of a connection that is shut is dropped. -/
theorem Shut.drops (h : r.Shut c) (a : Seal.Aead) {user : Party} {buffered : Bytes}
    (htakes : r.TakesUser e c user buffered) : .table c (.drop user.key) ∈ (r.step a e).2 := by
  obtain ⟨p, p', hp, hp', hgone, houtcome⟩ := (htakes.registered a).outcome
  rcases houtcome with ⟨haccepts, -⟩ | ⟨-, hdrop, -⟩
  · exact absurd (h.refuses.symm.trans haccepts) Bool.false_ne_true
  · exact hdrop

/-! ## What is still heard -/

/-- Whether a connection is closed makes no difference to what a message that is handled
makes the server remember. -/
theorem registry_handle_close (a : Seal.Aead) (bind : Binder) {l : Link} (hl : r.link? c = some l) :
    ((r.setLink c l.close).handle a bind c).1.registry = (r.handle a bind c).1.registry := by
  have hclosed : (r.setLink c l.close).link? c = some l.close := by
    rw [link?_setLink, if_pos rfl, hl]
    rfl
  have htake := Link.take?_close l
  cases ht : l.take? with
  | none =>
    rw [ht] at htake
    rw [handle, handle, hl, hclosed, Option.bind_some, Option.bind_some, ht, htake]
    rfl
  | some taken =>
    obtain ⟨m, rest⟩ := taken
    rw [ht] at htake
    rw [(confined_handle a bind hl ht).registry, (confined_handle a bind hclosed htake).registry]
    rfl

/-- A token that is admitted is handled on a connection. -/
def Admits (r : Run) (e : Event) (c : ConnId) : Prop :=
  ∃ bind l rest token, e = .handle c bind ∧ r.link? c = some l ∧
    l.take? = some (.auth token, rest) ∧ r.options.admits token = true

/-- A request that is granted is handled on a connection. -/
def Registers (a : Seal.Aead) (r : Run) (e : Event) (c : ConnId) : Prop :=
  ∃ bind l rest sealedRequest p, e = .handle c bind ∧ r.link? c = some l ∧
    l.take? = some (.openDataPort sealedRequest, rest) ∧
    provision r.options a bind r.now r.registry c sealedRequest = .ok p

theorem admits_of_authenticated (ht : Turn a r e x)
    (hbefore : r.registry.isAuthenticated c = false)
    (hafter : x.1.registry.isAuthenticated c = true) : r.Admits e c := by
  have hnew : x.1.registry.isAuthenticated c ≠ r.registry.isAuthenticated c := by
    rw [hbefore, hafter]
    decide
  rcases ht.registry_cases with hsame | ⟨d, -, hforgets⟩ | ⟨d, bind, l, rest, m, rfl, hl, htake, hm⟩
  · exact absurd (congrArg (·.isAuthenticated c) hsame) hnew
  · have hdismissed : (r.registry.dismiss d).isAuthenticated c = true := by
      rw [hforgets] at hafter
      exact hafter
    rw [Registry.isAuthenticated_dismiss, hbefore] at hdismissed
    cases hdismissed
  · by_cases hcd : c = d
    · subst hcd
      generalize x.1.registry = reg at hm hafter hnew
      cases hm with
      | admits token hadmits => exact ⟨bind, l, rest, token, rfl, hl, htake, hadmits⟩
      | rejects token =>
        rw [Registry.isAuthenticated_dismiss, hbefore] at hafter
        cases hafter
      | grants | keeps => exact absurd rfl hnew
    · exact absurd (hm.apart hcd).1 hnew

theorem registers_of_owns (ht : Turn a r e x) (hbefore : r.registry.owns c = false)
    (hafter : x.1.registry.owns c = true) : Registers a r e c := by
  obtain ⟨p, hp, hpc⟩ := List.any_eq_true.mp hafter
  have howner : p.owner = c := by simpa using hpc
  have hnew : p ∉ r.registry.proxies := fun hold => Registry.owns_eq_false hbefore p hold howner
  rcases ht.registry_cases with hsame | ⟨d, -, hforgets⟩ | ⟨d, bind, l, rest, m, rfl, hl, htake, hm⟩
  · exact absurd (hsame ▸ hp) hnew
  · rw [hforgets] at hp
    exact absurd (List.mem_of_mem_filter hp) hnew
  · generalize x.1.registry = reg at hm hp
    cases hm with
    | admits token =>
      rw [Registry.proxies_authenticate] at hp
      exact absurd hp hnew
    | rejects | keeps => exact absurd hp hnew
    | grants sealedRequest q hq =>
      rcases List.mem_append.mp hp with hp | hp
      · exact absurd hp hnew
      · rw [List.mem_singleton] at hp
        subst hp
        have hdc : d = c := (provision_owner hq).symm.trans howner
        subst hdc
        exact ⟨bind, l, rest, sealedRequest, p, rfl, hl, htake, hq⟩

theorem Admits.authenticates (h : r.Admits e c) (a : Seal.Aead) :
    (r.step a e).1.registry.isAuthenticated c = true := by
  obtain ⟨bind, l, rest, token, rfl, hl, htake, hadmits⟩ := h
  have hregistry := (confined_handle a bind hl htake).registry
  rw [react, onAuth, if_pos hadmits] at hregistry
  change (r.handle a bind c).1.registry.isAuthenticated c = true
  rw [hregistry, Registry.isAuthenticated_authenticate]
  simp

theorem Registers.owns (h : Registers a r e c) : (r.step a e).1.registry.owns c = true := by
  obtain ⟨bind, l, rest, sealedRequest, p, rfl, hl, htake, hp⟩ := h
  have hregistered := (grants_of_provision hl htake hp).registered
  exact List.any_eq_true.mpr ⟨p, hregistered, by simp [provision_owner hp]⟩

/-! ## When nothing more is heard -/

/-- Everything that was read on a connection is handled, and nothing more is read. -/
def Drained (r : Run) (c : ConnId) : Prop :=
  ∃ l, r.link? c = some l ∧ l.readEnd.isSome = true ∧ l.inbox = []

theorem Drained.turn (h : r.Drained c) (ht : Turn a r e x) : x.1.Drained c := by
  refine ht.holds ?_ ?_ (fun l l' haside hl => ⟨haside.readEnd ▸ hl.1, haside.inbox.trans hl.2⟩) h
  · rintro l y ⟨hread, hinbox⟩
    obtain ⟨why, hwhy⟩ := Option.isSome_iff_exists.mp hread
    have hmove := Link.move l y
    refine ⟨by rw [Link.readEnd_move hwhy hmove]; rfl, ?_⟩
    generalize (l.step y).1 = l', (l.step y).2 = fx at hmove
    cases hmove with
    | reads _ _ _ hnone => simp [hwhy] at hnone
    | _ => exact hinbox
  · rintro l l' m htake ⟨-, hinbox⟩
    obtain ⟨hmore, -⟩ := Link.take?_eq_some htake
    simp [hinbox] at hmore

theorem Drained.take? (h : r.Drained c) {l rest : Link} {m : Message} (hl : r.link? c = some l)
    (htake : l.take? = some (m, rest)) : False := by
  obtain ⟨k, hk, -, hinbox⟩ := h
  rw [hl] at hk
  cases hk
  obtain ⟨hmore, -⟩ := Link.take?_eq_some htake
  simp [hinbox] at hmore

theorem Drained.not_admits (h : r.Drained c) : ¬ r.Admits e c :=
  fun ⟨_, _, _, _, _, hl, htake, _⟩ => h.take? hl htake

theorem Drained.not_registers (h : r.Drained c) : ¬ Registers a r e c :=
  fun ⟨_, _, _, _, _, _, hl, htake, _⟩ => h.take? hl htake

/-! ## At every moment -/

variable {o : Options} {ids : IdSource} (course : Course (step a) (start o ids)) {m n : Nat}

theorem admits_between (hmn : m ≤ n)
    (hbefore : (course.state m).registry.isAuthenticated c = false)
    (hafter : (course.state n).registry.isAuthenticated c = true) :
    ∃ k, m ≤ k ∧ k < n ∧ (course.state k).Admits (course.happens k) c := by
  obtain ⟨k, hmk, hkn, hnot, hnext⟩ := Course.begins_between
    (P := fun k => (course.state k).registry.isAuthenticated c = true) hmn (by simpa using hbefore)
    hafter
  exact ⟨k, hmk, hkn, admits_of_authenticated (turn a _ _) (by simpa using hnot) hnext⟩

theorem registers_between (hmn : m ≤ n) (hbefore : (course.state m).registry.owns c = false)
    (hafter : (course.state n).registry.owns c = true) :
    ∃ k, m ≤ k ∧ k < n ∧ Registers a (course.state k) (course.happens k) c := by
  obtain ⟨k, hmk, hkn, hnot, hnext⟩ := Course.begins_between
    (P := fun k => (course.state k).registry.owns c = true) hmn (by simpa using hbefore) hafter
  exact ⟨k, hmk, hkn, registers_of_owns (turn a _ _) (by simpa using hnot) hnext⟩

/-- Once everything that was read on it is handled, nothing new is remembered of a
connection. -/
theorem remembered_of_drained (hmn : m ≤ n) (h : (course.state m).Drained c) :
    ((course.state n).registry.isAuthenticated c = true →
        (course.state m).registry.isAuthenticated c = true) ∧
      ((course.state n).registry.owns c = true → (course.state m).registry.owns c = true) := by
  have hlater : ∀ k, m ≤ k → (course.state k).Drained c := fun k hmk =>
    course.from_then_on (P := fun r => r.Drained c) (fun r e h => h.turn (turn a r e)) hmk h
  refine ⟨fun hauth => ?_, fun howns => ?_⟩
  · by_contra hnot
    obtain ⟨k, hmk, -, hk⟩ := admits_between course hmn (by simpa using hnot) hauth
    exact (hlater k hmk).not_admits hk
  · by_contra hnot
    obtain ⟨k, hmk, -, hk⟩ := registers_between course hmn (by simpa using hnot) howns
    exact (hlater k hmk).not_registers hk

/-- A closed connection is told nothing more and takes no users. But whether a message that
is handled makes the server remember something does not depend on whether its connection is
closed: from any moment on a connection gets authenticated exactly if a token that is admitted
is still handled, and gets a proxy exactly if a request that is granted is. None is once
everything that was read is handled and the reader has stopped; and nothing is remembered of a
connection that has finished. -/
theorem heard_until_drained (course : Course (step a) (start o ids)) (c : ConnId) :
    (∀ n bind l, (course.state n).link? c = some l →
      (((course.state n).setLink c l.close).handle a bind c).1.registry =
        ((course.state n).handle a bind c).1.registry) ∧
    (∀ m n, m ≤ n → (course.state m).Shut c →
      (course.state n).queuedOn (course.state (n + 1)) c = [] ∧
      ∀ user buffered, (course.state n).TakesUser (course.happens n) c user buffered →
        .table c (.drop user.key) ∈ course.effectsAt n) ∧
    (∀ m, (course.state m).registry.isAuthenticated c = false →
      ((∃ n, m ≤ n ∧ (course.state n).registry.isAuthenticated c = true) ↔
        ∃ k, m ≤ k ∧ (course.state k).Admits (course.happens k) c)) ∧
    (∀ m, (course.state m).registry.owns c = false →
      ((∃ n, m ≤ n ∧ (course.state n).registry.owns c = true) ↔
        ∃ k, m ≤ k ∧ Registers a (course.state k) (course.happens k) c)) ∧
    (∀ m n, m ≤ n → (course.state m).Drained c →
      ((course.state n).registry.isAuthenticated c = true →
        (course.state m).registry.isAuthenticated c = true) ∧
      ((course.state n).registry.owns c = true → (course.state m).registry.owns c = true)) ∧
    ∀ m n, m ≤ n → (course.state m).Finished c →
      (course.state n).registry.isAuthenticated c = false ∧
        (course.state n).registry.owns c = false := by
  refine ⟨fun n bind l => registry_handle_close a bind, ?_, fun m hbefore => ⟨?_, ?_⟩,
    fun m hbefore => ⟨?_, ?_⟩, fun m n => remembered_of_drained course, ?_⟩
  · intro m n hmn hshut
    have hlater : (course.state n).Shut c := shut_from hshut hmn
    exact ⟨hlater.queuedOn (turn a _ _), fun user buffered htakes => hlater.drops a htakes⟩
  · rintro ⟨n, hmn, hafter⟩
    obtain ⟨k, hmk, -, hk⟩ := admits_between course hmn hbefore hafter
    exact ⟨k, hmk, hk⟩
  · rintro ⟨k, hmk, hk⟩
    exact ⟨k + 1, Nat.le_succ_of_le hmk, hk.authenticates a⟩
  · rintro ⟨n, hmn, hafter⟩
    obtain ⟨k, hmk, -, hk⟩ := registers_between course hmn hbefore hafter
    exact ⟨k, hmk, hk⟩
  · rintro ⟨k, hmk, hk⟩
    exact ⟨k + 1, Nat.le_succ_of_le hmk, hk.owns⟩
  · intro m n hmn hfinished
    have hlater : (course.state n).Finished c :=
      course.from_then_on (P := fun r => r.Finished c) (fun r e h => (turn a r e).finished h)
        hmn hfinished
    exact (orderly course n).unknown hlater

/-- A connection asks for the name web, then presents a token, and then asks again; all of it
is read before the first request is handled. Then the connection comes to its end. -/
def asksTooEarly : Course (step webCipher) (start webOptions .fresh) :=
  let token := Message.auth ""
  let request := Message.openDataPort webSealed
  .of [.connect none,
    .link ⟨1⟩ (.receive (Frame.write request.kind.code request.body ++
      Frame.write token.kind.code token.body ++ Frame.write request.kind.code request.body)),
    .link ⟨1⟩ .read, .link ⟨1⟩ .read, .link ⟨1⟩ .read,
    .handle ⟨1⟩ bindsAll, .handle ⟨1⟩ bindsAll, .handle ⟨1⟩ bindsAll,
    .link ⟨1⟩ .noticeClose, .link ⟨1⟩ (.beginFlush 0), .link ⟨1⟩ .beginFrame,
    .link ⟨1⟩ (.transmit 100), .link ⟨1⟩ .endWriting, .link ⟨1⟩ .finish] (.advance 0)

/-- The request that comes too early is refused and the connection is closed for it. But
then it gets authenticated, and then it gets a proxy, by what was read before. -/
theorem remembered_after_close :
    Refuses webCipher (asksTooEarly.state 5) (asksTooEarly.happens 5) ⟨1⟩ .unauthenticated
      { inbox := [.auth "", .openDataPort webSealed] } ∧
    (asksTooEarly.state 6).Shut ⟨1⟩ ∧
    (asksTooEarly.state 6).registry.isAuthenticated ⟨1⟩ = false ∧
    (asksTooEarly.state 7).registry.isAuthenticated ⟨1⟩ = true ∧
    (asksTooEarly.state 7).registry.owns ⟨1⟩ = false ∧
    (asksTooEarly.state 8).registry.owns ⟨1⟩ = true := by
  have hlink : (asksTooEarly.state 5).link? ⟨1⟩ =
      some { inbox := [.openDataPort webSealed, .auth "", .openDataPort webSealed] } := by
    decide +kernel
  have hrefuses : Refuses webCipher (asksTooEarly.state 5) (asksTooEarly.happens 5) ⟨1⟩
      .unauthenticated { inbox := [.auth "", .openDataPort webSealed] } :=
    refuses_of_provision hlink rfl (by rw [provision, if_pos (by decide +kernel)])
  refine ⟨hrefuses, ⟨_, hrefuses.answer, rfl⟩, ?_⟩
  decide +kernel

theorem heard_until_drained_asksTooEarly :
    (asksTooEarly.state 6).Shut ⟨1⟩ ∧
    (∃ k, 6 ≤ k ∧ (asksTooEarly.state k).Admits (asksTooEarly.happens k) ⟨1⟩) ∧
    (∃ k, 6 ≤ k ∧ Registers webCipher (asksTooEarly.state k) (asksTooEarly.happens k) ⟨1⟩) ∧
    (asksTooEarly.state 9).Drained ⟨1⟩ ∧ (asksTooEarly.state 14).Finished ⟨1⟩ ∧
    ∀ n, 14 ≤ n → (asksTooEarly.state n).registry.isAuthenticated ⟨1⟩ = false ∧
      (asksTooEarly.state n).registry.owns ⟨1⟩ = false := by
  obtain ⟨-, -, hadmits, hregisters, -, hgone⟩ := heard_until_drained asksTooEarly ⟨1⟩
  have hfinished : (asksTooEarly.state 14).Finished ⟨1⟩ :=
    ⟨((asksTooEarly.state 14).link? ⟨1⟩).get (by decide +kernel), by simp, by decide +kernel⟩
  refine ⟨⟨((asksTooEarly.state 6).link? ⟨1⟩).get (by decide +kernel), by simp, by decide +kernel⟩,
    (hadmits 6 (by decide +kernel)).mp ⟨7, by decide, by decide +kernel⟩,
    (hregisters 6 (by decide +kernel)).mp ⟨8, by decide, by decide +kernel⟩,
    ⟨((asksTooEarly.state 9).link? ⟨1⟩).get (by decide +kernel), by simp, by decide +kernel⟩,
    hfinished, fun n hn => hgone 14 n hn hfinished⟩

end Run

end ReverseTunnel.Server
