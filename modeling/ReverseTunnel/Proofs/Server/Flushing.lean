import ReverseTunnel.Proofs.Server.Serving

/-!
What a closed connection of a server still sends.

What is proved: nothing is queued on a closed connection any more (`Run.Shut.queuedOn`), and
nothing but the steps of its link matters to its writer (`Run.closed_turn`). So every course
of a server carries the link of each connection (`carries`), and the writer of one that is
kept puts on the transport what was accepted before the connection was closed, up to the
first message that is too long for a frame (`delivers`).

What is assumed there: the transport does not fail, the far end keeps reading, and the
writer's time is never up before it has stopped. A far end that reads too slowly for the
last may get nothing after the frame that it was reading.
-/

namespace ReverseTunnel.Server

open Control
open Session (ConnId IdSource)
open Wire (Message Frame bytesOf)

/-! ## Closed links -/

theorem Action.writesAlike (ys : List Action) : ∀ {l : Link}, l.closed = true →
    l.WritesAlike (allOnLink l ys) := by
  induction ys with
  | nil => exact fun _ => .refl _
  | cons y ys ih =>
    intro l h
    have hfirst : l.WritesAlike (y.onLink l) := by
      cases y with
      | emit m => exact Link.writesAlike_emitted h m
      | close => exact Link.writesAlike_close l
      | count _ | listen _ => exact .refl l
    exact hfirst.trans (ih ((aside_onLink l y).closed h))

namespace Run

variable {a : Seal.Aead} {r : Run} {c : ConnId} {e : Event} {x : Run × List Effect}

theorem closed_turn (ht : Turn a r e x) {l : Link} (hl : r.link? c = some l)
    (hclosed : l.closed = true) :
    ∃ l', x.1.link? c = some l' ∧ l'.closed = true ∧ (carrier c).OnClosed l e l' x.2 := by
  have hstays (helse : ∀ y, e ≠ .link c y) (hsame : x.1.link? c = r.link? c)
      (hquiet : ∀ y, .link c y ∈ x.2 → ∃ n, y = .count n) :
      ∃ l', x.1.link? c = some l' ∧ l'.closed = true ∧ (carrier c).OnClosed l e l' x.2 :=
    ⟨l, hsame.trans hl, hclosed, .rests e l x.2 (fun y _ => helse y) (.refl l) hquiet⟩
  cases ht with
  | connects peer => exact hstays nofun (by rw [link?_connect, hl, Option.some_or]) (by simp)
  | rests _ _ hidle hc =>
    refine hstays ?_ ((hc c).own.trans Option.map_id_apply) ((hc c).quiet c)
    rintro y rfl
    cases hl.symm.trans hidle
  | moves d y k r' hk hc =>
    by_cases hd : c = d
    · subst hd
      cases hl.symm.trans hk
      exact ⟨_, hc.own.trans (by rw [hl]; rfl), Link.closed_move hclosed (Link.move l y), .steps y⟩
    · exact hstays (by simp [Ne.symm hd]) (hc.others c hd) (by simp [Ne.symm hd])
  | handles d bind k rest m _ hk htake hc =>
    by_cases hd : c = d
    · subst hd
      cases hl.symm.trans hk
      have hrest : rest.closed = true := by
        obtain ⟨-, hrest⟩ := Link.take?_eq_some htake
        rw [hrest]
        exact hclosed
      exact ⟨_, hc.own.trans (by rw [hl]; rfl), (Action.aside_allOnLink _ rest).closed hrest,
        .rests _ _ _ nofun ((Link.writesAlike_take? htake).trans (Action.writesAlike _ hrest))
          (hc.quiet c)⟩
    · exact hstays nofun (hc.others c hd) (hc.quiet c)
  | announces _ d sessions _ he hc =>
    have helse : ∀ y, e ≠ .link c y := by
      rintro y rfl
      cases he
    by_cases hd : c = d
    · subst hd
      exact ⟨_, hc.own.trans (by rw [hl]; rfl), (Link.aside_emitAll _ l).closed hclosed,
        .rests _ _ _ (fun y _ => helse y) (Link.writesAlike_emitAll _ hclosed) (hc.quiet c)⟩
    · exact hstays helse (hc.others c hd) (hc.quiet c)

theorem Shut.queuedOn (h : r.Shut c) (ht : Turn a r e x) : r.queuedOn x.1 c = [] := by
  obtain ⟨l, hl, hclosed⟩ := h
  obtain ⟨l', hl', -, hon⟩ := closed_turn ht hl hclosed
  generalize hfx : x.2 = fx at hon
  cases hon with
  | steps y => exact queuedOn_link ht
  | rests _ _ _ _ halike =>
    apply queuedOn_of_length
    rw [outbox_of_link? hl', outbox_of_link? hl, halike.outbox]

theorem stopped_of_sentEnd (ht : Turn a r e x) (hend : .link c .sentEnd ∈ x.2) :
    ∃ l, x.1.link? c = some l ∧ l.writerStopped = true := by
  cases ht with
  | connects peer => cases hend
  | moves d y l r' hl hc =>
    obtain ⟨y', hy', heq⟩ := List.mem_map.mp hend
    cases heq
    exact ⟨_, hc.own.trans (by rw [hl]; rfl), Link.stopped_of_sentEnd (Link.move l y) hy'⟩
  | rests _ _ _ hc => obtain ⟨k, hk⟩ := (hc c).quiet c _ hend; cases hk
  | handles _ _ _ _ _ _ _ _ hc => obtain ⟨k, hk⟩ := hc.quiet c _ hend; cases hk
  | announces _ _ _ _ _ hc => obtain ⟨k, hk⟩ := hc.quiet c _ hend; cases hk

end Run

variable {a : Seal.Aead} {o : Options} {ids : IdSource} {course : Course (Run.step a) (Run.start o ids)}
  {c : ConnId} {n : Nat}

theorem carries (course : Course (Run.step a) (Run.start o ids)) (c : ConnId) :
    (carrier c).Carries course where
  closed n _ hl hclosed := Run.closed_turn (Run.turn a (course.state n) _) hl hclosed
  ends n hend := by
    obtain ⟨l, hl, hw⟩ := Run.stopped_of_sentEnd (Run.turn a (course.state n) _) hend
    exact ⟨l, hl, closed_of_stopped course c (n + 1) hl hw, hw⟩

theorem shut_from (h : (course.state n).Shut c) {k : Nat} (hnk : n ≤ k) : (course.state k).Shut c :=
  (carries course c).shut_from hnk h

theorem sent_record (course : Course (Run.step a) (Run.start o ids)) (c : ConnId) (n : Nat) :
    (record course c n).sent = (carrier c).sent (course.effects n) := by
  induction n with
  | zero => rfl
  | succ n ih => rw [record, Record.after, ih, Course.effects, (carrier c).sent_append, sentOn]

/-- On a closed connection that is kept, and whose writer is not cut off, what was accepted is
put on the transport, up to the first message that is too long for a frame. If none is, the far
end is then told that nothing more comes, and nothing more does. -/
theorem delivers (hc : (carrier c).Keeping course) (hintime : ∀ k, ¬(carrier c).CutOff course k)
    {accepted : List Message}
    (hclosing : (carrier c).Closing (course.state n) accepted (record course c n).sent)
    (hgoing : ¬(carrier c).Stopped (course.state n)) :
    ∃ k, n ≤ k ∧
      (∀ j, k ≤ j → (record course c j).sent =
        bytesOf (accepted.takeWhile fun m => Frame.Fits m.body)) ∧
      ((∀ m ∈ accepted, Frame.Fits m.body) →
        course.effectsAt k = [.link c .sentEnd] ∧
          ∀ j, j < k → .link c .sentEnd ∉ course.effectsAt j) := by
  rw [sent_record] at hclosing
  obtain ⟨k, hnk, hends, hlast, hcut | ⟨hsent, hend⟩⟩ :=
    hc.delivers (carries course c) hclosing hgoing
  · exact absurd hcut (hintime k)
  · refine ⟨k, hnk, fun j hkj => ?_, fun hfits => ⟨hend hfits, hends⟩⟩
    rw [sent_record, hlast j hkj, hsent]

end ReverseTunnel.Server
