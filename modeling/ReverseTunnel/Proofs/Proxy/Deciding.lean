import ReverseTunnel.Proofs.Proxy.Judging

/-!
What a connection is judged to be, and when.

Of the bytes that have arrived, and of whether the far end has finished, it is said what they
show (`Shown`).

What is proved (`decides_exactly`):
1. A judgement is reached at the first moment at which something is shown, and says what is; if
   nothing is shown before the time is up, the connection is a user then (`Decided`). What was
   read, what is unread and what arrives afterwards are what was sent.
2. Which chunks the bytes arrive in does not matter: what has arrived by each moment decides.

What is assumed: the arrivals are given in the order of their times, and nothing arrives after the
end (`Timed`).

What is not said: how long a look takes. What arrives at the very moment at which the time is up
comes too late.
-/

namespace ReverseTunnel.Proxy

open Session

/-! ## What the bytes show -/

/-- What a connection is. -/
inductive Kind where
  | user
  | data (session : UInt32)
  /-- It ended before it showed anything. -/
  | closed
  deriving DecidableEq, Repr

def Judgement.kind : Judgement → Kind
  | .user _ => .user
  | .data session _ => .data session
  | .closed => .closed

/-- What was read and what is unread are all that was sent; nothing that was sent is left
of a connection that has ended. -/
def Judgement.Keeps (sent unread : Bytes) : Judgement → Prop
  | .user buffered => buffered ++ unread = sent
  | .data session rest => Handshake.encode session ++ rest ++ unread = sent
  | .closed => unread = []

/-- What the bytes that have arrived show, and the end if it has come. -/
inductive Shown (bs : Bytes) (ended : Bool) : Kind → Prop
  /-- A byte departs from the mark. -/
  | foreign (departs : ¬Handshake.Fits bs) : Shown bs ended .user
  | handshake (marked : Handshake.mark <+: bs) (long : Handshake.length ≤ bs.length) :
      Shown bs ended (.data (Handshake.idOf bs))
  /-- It has ended within what may have become a handshake. -/
  | cut (fits : Handshake.Fits bs) (short : bs.length < Handshake.length) (done : ended = true) :
      Shown bs ended .closed

/-- The bytes may be the beginning of a handshake. -/
structure Undecided (bs : Bytes) : Prop where
  fits : Handshake.Fits bs
  short : bs.length < Handshake.length

variable {bs cs buffer seen : Bytes} {ended : Bool} {k k' : Kind} {s s' : Socket}

theorem Undecided.of_prefix (h : Undecided cs) (hbs : bs <+: cs) : Undecided bs :=
  ⟨h.fits.of_prefix hbs, Nat.lt_of_le_of_lt hbs.length_le h.short⟩

theorem Undecided.not_shown (h : Undecided bs) : ¬Shown bs false k := by
  intro hs
  cases hs with
  | foreign departs => exact departs h.fits
  | handshake _ long => exact absurd h.short (Nat.not_lt.mpr long)
  | cut _ _ done => cases done

theorem shown_or_undecided (bs : Bytes) (ended : Bool) :
    (∃ k, Shown bs ended k) ∨ Undecided bs ∧ ended = false := by
  by_cases hfits : Handshake.Fits bs
  · rcases Nat.lt_or_ge bs.length Handshake.length with hshort | hlong
    · cases ended with
      | true => exact .inl ⟨_, .cut hfits hshort rfl⟩
      | false => exact .inr ⟨⟨hfits, hshort⟩, rfl⟩
    · have hmark : Handshake.mark.length ≤ bs.length := Nat.le_trans (by decide) hlong
      exact .inl ⟨_, .handshake (hfits.mark_prefix hmark) hlong⟩
  · exact .inl ⟨_, .foreign hfits⟩

theorem Shown.unique (h : Shown bs ended k) (h' : Shown bs ended k') : k = k' := by
  cases h with
  | foreign departs =>
    cases h' with
    | foreign => rfl
    | handshake marked => exact absurd (.inr marked) departs
    | cut fits => exact absurd fits departs
  | handshake marked long =>
    cases h' with
    | foreign departs => exact absurd (.inr marked) departs
    | handshake => rfl
    | cut _ short => exact absurd short (Nat.not_lt.mpr long)
  | cut fits short =>
    cases h' with
    | foreign departs => exact absurd fits departs
    | handshake _ long => exact absurd short (Nat.not_lt.mpr long)
    | cut => rfl

/-- What is shown is shown for good: nothing that arrives later changes it. -/
theorem Shown.later (h : Shown bs ended k) {ended' : Bool} (hend : ended = true → cs = [] ∧ ended' = true) :
    Shown (bs ++ cs) ended' k := by
  have hpre : bs <+: bs ++ cs := List.prefix_append bs cs
  cases h with
  | foreign departs => exact .foreign fun hfits => departs (hfits.of_prefix hpre)
  | handshake marked long =>
    have hid : Handshake.idOf (bs ++ cs) = Handshake.idOf bs := by
      have hmark : Handshake.mark.length ≤ bs.length := Nat.le_trans (by decide) long
      have hfour : 4 ≤ (bs.drop Handshake.mark.length).length := by
        rw [List.length_drop]
        exact Nat.le_sub_of_add_le long
      rw [Handshake.idOf, Handshake.idOf, List.drop_append_of_le_length hmark,
        List.take_append_of_le_length hfour]
    exact hid ▸ .handshake (marked.trans hpre) (Nat.le_trans long hpre.length_le)
  | cut fits short done =>
    obtain ⟨rfl, rfl⟩ := hend done
    rw [List.append_nil]
    exact .cut fits short rfl

/-! ## A look at a connection -/

/-- What a look reads is the beginning of what has arrived, which is inspected in full. -/
theorem inspect_read (hbuffer : buffer.length ≤ judgedLimit) (unread : Bytes) :
    Handshake.inspect (buffer ++ unread.take (judgedLimit - buffer.length)) =
      Handshake.inspect (buffer ++ unread) := by
  have hread : buffer ++ unread.take (judgedLimit - buffer.length) =
      (buffer ++ unread).take judgedLimit := by
    rw [List.take_append, List.take_of_length_le hbuffer]
  rw [hread]
  exact Handshake.inspect_take (by decide)

theorem look_of_shown (hbuffer : buffer.length ≤ judgedLimit)
    (h : Shown (buffer ++ s.unread) s.remoteEnded k) :
    ∃ j seen s', look buffer s = (some j, seen, s') ∧ j.kind = k ∧
      j.Keeps (buffer ++ s.unread) s'.unread := by
  have hinspect := inspect_read hbuffer s.unread
  obtain ⟨seen, hseen⟩ : ∃ seen, buffer ++ s.unread.take (judgedLimit - buffer.length) = seen := ⟨_, rfl⟩
  obtain ⟨rest, hrest⟩ : ∃ rest, s.unread.drop (judgedLimit - buffer.length) = rest := ⟨_, rfl⟩
  have hall : seen ++ rest = buffer ++ s.unread := by
    rw [← hseen, ← hrest, List.append_assoc, List.take_append_drop]
  rw [hseen] at hinspect
  cases h with
  | foreign departs =>
    rw [Handshake.inspect_eq_foreign_iff.mpr departs] at hinspect
    refine ⟨.user seen, seen, { s with unread := rest }, ?_, rfl, hall⟩
    simp only [look, hseen, hrest, judgement?, hinspect]
  | handshake marked long =>
    rw [Handshake.inspect_of_long (.inr marked) long] at hinspect
    refine ⟨.data _ (seen.drop Handshake.length), seen, { s with unread := rest }, ?_, rfl, ?_⟩
    · simp only [look, hseen, hrest, judgement?, hinspect]
    · rw [Judgement.Keeps, ← Handshake.eq_encode_append_of_inspect hinspect]
      exact hall
  | cut fits short done =>
    rw [Handshake.inspect_of_short fits short] at hinspect
    have hread : rest = [] := by
      rw [← hrest, List.drop_eq_nil_iff]
      simp only [List.length_append, Handshake.length, judgedLimit] at short ⊢
      omega
    refine ⟨.closed, seen, { s with unread := rest }, ?_, rfl, hread⟩
    simp only [look, hseen, hrest, judgement?, hinspect, done, hread]
    rfl

theorem look_of_undecided (h : Undecided (buffer ++ s.unread)) (hopen : s.remoteEnded = false) :
    look buffer s = (none, buffer ++ s.unread, { s with unread := [] }) := by
  have hlength : s.unread.length ≤ judgedLimit - buffer.length := by
    have hshort := h.short
    simp only [List.length_append, Handshake.length, judgedLimit] at hshort ⊢
    omega
  have hseen := Handshake.inspect_of_short h.fits h.short
  simp only [look, judgement?, List.take_of_length_le hlength, List.drop_eq_nil_of_le hlength, hseen,
    hopen]
  rfl

/-! ## Arrivals in the course of time -/

/-- What arrivals bring, in order. -/
def brought (arrivals : List Batch) : Bytes := arrivals.flatMap (·.bytes)

/-- What has arrived by a moment. -/
def arrivedBy (arrivals : List Batch) (t : Nat) : Bytes := brought (arrivals.filter (·.time ≤ t))

/-- Whether the far end has finished by a moment. -/
def overBy (arrivals : List Batch) (t : Nat) : Bool := (arrivals.filter (·.time ≤ t)).any (·.ends)

/-- Arrivals in order of time, with nothing behind an end. There may be several at one
moment, each of which is looked at before the next comes. -/
structure Timed (arrivals : List Batch) : Prop where
  sorted : arrivals.Pairwise fun a b => a.time ≤ b.time
  final : arrivals.Pairwise fun a b => a.ends = true → b.bytes = []

/-- A judgement is reached when something is shown for the first time, or when the time is
up, and nothing that was sent is lost. -/
structure Decided (judgeDelay : Nat) (arrivals : List Batch) (d : Decision) : Prop where
  verdict : d.time < judgeDelay ∧
      Shown (arrivedBy arrivals d.time) (overBy arrivals d.time) d.judgement.kind ∨
    d.time = judgeDelay ∧ d.judgement.kind = .user
  first : ∀ t, t < d.time → ∀ k, ¬Shown (arrivedBy arrivals t) (overBy arrivals t) k
  lossless : ∃ before after, arrivals = before ++ after ∧ (∀ b ∈ before, b.time ≤ d.time) ∧
    (∀ b ∈ after, d.time ≤ b.time) ∧ d.judgement.Keeps (brought before) d.unread

/-- What has arrived shows nothing yet. -/
structure Pending (past : List Batch) : Prop where
  undecided : Undecided (brought past)
  going : ∀ b ∈ past, b.ends = false

variable {past rest arrivals arrivals' : List Batch} {b : Batch} {d d' : Decision} {t judgeDelay : Nat}

theorem brought_append (before after : List Batch) :
    brought (before ++ after) = brought before ++ brought after := List.flatMap_append

theorem brought_mono (h : past <+: arrivals) : brought past <+: brought arrivals := by
  obtain ⟨rest, rfl⟩ := h
  rw [brought_append]
  exact List.prefix_append _ _

/-- What comes by a moment comes first. -/
theorem filter_prefix_of_sorted (h : arrivals.Pairwise fun a b => a.time ≤ b.time) (t : Nat) :
    arrivals.filter (·.time ≤ t) <+: arrivals := by
  induction h with
  | nil => exact List.prefix_refl _
  | @cons a rest hle _ ih =>
    by_cases ha : a.time ≤ t
    · rw [List.filter_cons_of_pos (by simpa using ha)]
      exact (List.prefix_cons_inj a).mpr ih
    · -- what comes after something too late is too late as well
      rw [List.filter_cons_of_neg (by simpa using ha), List.filter_eq_nil_iff.mpr]
      · exact List.nil_prefix
      · intro b hb
        have := hle b hb
        simp only [decide_eq_true_eq]
        omega

theorem Pending.not_shown (h : Pending past) (hT : Timed (past ++ rest)) (ht : ∀ b ∈ rest, t < b.time)
    (k : Kind) : ¬Shown (arrivedBy (past ++ rest) t) (overBy (past ++ rest) t) k := by
  have hlater : rest.filter (·.time ≤ t) = [] := by
    rw [List.filter_eq_nil_iff]
    intro b hb
    simpa using ht b hb
  have hearlier : past.filter (·.time ≤ t) <+: past :=
    filter_prefix_of_sorted (List.pairwise_append.mp hT.sorted).1 t
  have hgoing : overBy (past ++ rest) t = false := by
    rw [overBy, List.filter_append, hlater, List.append_nil, List.any_eq_false]
    intro b hb
    simp [h.going b (hearlier.subset hb)]
  rw [hgoing, arrivedBy, List.filter_append, hlater, List.append_nil]
  exact (h.undecided.of_prefix (brought_mono hearlier)).not_shown

/-- Nothing is shown before the time is up. -/
theorem decided_late (hT : Timed (past ++ rest)) (h : Pending past)
    (hpast : ∀ b ∈ past, b.time ≤ judgeDelay) (hlate : ∀ b ∈ rest, judgeDelay ≤ b.time) :
    Decided judgeDelay (past ++ rest) ⟨.user (brought past), judgeDelay, []⟩ where
  verdict := .inr ⟨rfl, rfl⟩
  first _ ht := h.not_shown hT fun b hb => Nat.lt_of_lt_of_le ht (hlate b hb)
  lossless := ⟨past, rest, rfl, hpast, hlate, List.append_nil _⟩

theorem decided_now (hT : Timed (past ++ b :: rest)) (h : Pending past) (hin : b.time < judgeDelay)
    {j : Judgement} {unread : Bytes} (hshown : Shown (brought past ++ b.bytes) b.ends j.kind)
    (hkeeps : j.Keeps (brought past ++ b.bytes) unread) :
    Decided judgeDelay (past ++ b :: rest) ⟨j, b.time, unread⟩ := by
  obtain ⟨-, hsorted, hearlier⟩ := List.pairwise_append.mp hT.sorted
  obtain ⟨-, hfinal, -⟩ := List.pairwise_append.mp hT.final
  have hpast : past.filter (·.time ≤ b.time) = past :=
    List.filter_eq_self.mpr fun a ha => by simpa using hearlier a ha b List.mem_cons_self
  -- chunks of the same moment that come later change nothing
  let same := rest.filter (·.time ≤ b.time)
  have hby : (past ++ b :: rest).filter (·.time ≤ b.time) = past ++ b :: same := by
    rw [List.filter_append, hpast, List.filter_cons_of_pos (by simp)]
  have hend : b.ends = true → brought same = [] ∧ overBy (past ++ b :: rest) b.time = true := by
    intro hends
    refine ⟨List.flatMap_eq_nil_iff.mpr fun c hc => ?_, ?_⟩
    · exact (List.pairwise_cons.mp hfinal).1 c (List.mem_filter.mp hc).1 hends
    · rw [overBy, hby]
      exact List.any_eq_true.mpr ⟨b, List.mem_append_right _ List.mem_cons_self, hends⟩
  refine ⟨.inl ⟨hin, ?_⟩, fun _ ht => h.not_shown hT ?_, past ++ [b], rest, ?_, ?_, ?_, ?_⟩
  · have hbytes : arrivedBy (past ++ b :: rest) b.time = brought past ++ b.bytes ++ brought same := by
      rw [arrivedBy, hby, brought_append, List.append_assoc]
      rfl
    rw [hbytes]
    exact hshown.later hend
  · rintro c (_ | ⟨_, hc⟩)
    · exact ht
    · exact Nat.lt_of_lt_of_le ht ((List.pairwise_cons.mp hsorted).1 c hc)
  · rw [List.append_assoc]
    rfl
  · intro c hc
    rcases List.mem_append.mp hc with hc | hc
    · exact hearlier c hc b List.mem_cons_self
    · obtain rfl := List.mem_singleton.mp hc
      exact Nat.le_refl _
  · exact (List.pairwise_cons.mp hsorted).1
  · rw [brought_append]
    simpa [brought] using hkeeps

/-- What is judged from a moment on at which nothing is shown yet. -/
theorem decided_from (rest : List Batch) : ∀ past, Timed (past ++ rest) → Pending past →
    (∀ b ∈ past, b.time ≤ judgeDelay) →
    Decided judgeDelay (past ++ rest) (decideFrom judgeDelay (brought past) {} rest) := by
  induction rest with
  | nil => exact fun past hT h hpast => decided_late hT h hpast nofun
  | cons b rest ih =>
    intro past hT h hpast
    rw [decideFrom]
    split
    · rename_i hlate
      obtain ⟨-, hsorted, -⟩ := List.pairwise_append.mp hT.sorted
      refine decided_late hT h hpast ?_
      rintro c (_ | ⟨_, hc⟩)
      · exact hlate
      · exact Nat.le_trans hlate ((List.pairwise_cons.mp hsorted).1 c hc)
    · rename_i hin
      have hsocket : (let s := Socket.receive {} (.bytes b.bytes)
          if b.ends then s.receive .ended else s) = { unread := b.bytes, remoteEnded := b.ends } := by
        cases hends : b.ends <;> rfl
      simp only at hsocket
      simp only [hsocket]
      rcases shown_or_undecided (brought past ++ b.bytes) b.ends with ⟨k, hk⟩ | ⟨hundecided, hgoing⟩
      · have hbuffer : (brought past).length ≤ judgedLimit :=
          Nat.le_of_lt (Nat.lt_trans h.undecided.short (by decide))
        obtain ⟨j, seen, s', hlook, rfl, hkeeps⟩ :=
          look_of_shown (s := { unread := b.bytes, remoteEnded := b.ends }) hbuffer hk
        rw [hlook]
        exact decided_now hT h (Nat.not_le.mp hin) hk hkeeps
      · have hlook := look_of_undecided (s := { unread := b.bytes, remoteEnded := b.ends }) hundecided
          hgoing
        have hpast' : brought past ++ b.bytes = brought (past ++ [b]) := by
          rw [brought_append]
          simp [brought]
        rw [hlook]
        simp only [hgoing, hpast'] at hundecided ⊢
        have hnext := ih (past ++ [b])
        rw [List.append_assoc] at hnext
        refine hnext hT ⟨hundecided, ?_⟩ ?_
        · intro c hc
          rcases List.mem_append.mp hc with hc | hc
          · exact h.going c hc
          · rw [List.mem_singleton.mp hc, hgoing]
        · intro c hc
          rcases List.mem_append.mp hc with hc | hc
          · exact hpast c hc
          · rw [List.mem_singleton.mp hc]
            exact Nat.le_of_lt (Nat.not_le.mp hin)

/-- There is one judgement: where the same has arrived at every moment before the time is up,
the same is found at the same time. -/
theorem Decided.unique (h : Decided judgeDelay arrivals d) (h' : Decided judgeDelay arrivals' d')
    (hsame : ∀ t, t < judgeDelay → arrivedBy arrivals' t = arrivedBy arrivals t ∧
      overBy arrivals' t = overBy arrivals t) :
    d'.time = d.time ∧ d'.judgement.kind = d.judgement.kind := by
  rcases h.verdict with ⟨hin, hshown⟩ | ⟨hup, huser⟩
  · obtain ⟨hbytes, hends⟩ := hsame d.time hin
    rw [← hbytes, ← hends] at hshown
    have hle : d'.time ≤ d.time := Nat.not_lt.mp fun hlt => h'.first d.time hlt _ hshown
    rcases h'.verdict with ⟨hin', hshown'⟩ | ⟨hup', -⟩
    · obtain ⟨hbytes', hends'⟩ := hsame d'.time hin'
      rw [hbytes', hends'] at hshown'
      have heq : d'.time = d.time :=
        Nat.le_antisymm hle (Nat.not_lt.mp fun hlt => h.first d'.time hlt _ hshown')
      rw [heq, ← hbytes, ← hends] at hshown'
      exact ⟨heq, hshown'.unique hshown⟩
    · omega
  · rcases h'.verdict with ⟨hin', hshown'⟩ | ⟨hup', huser'⟩
    · obtain ⟨hbytes', hends'⟩ := hsame d'.time hin'
      rw [hbytes', hends'] at hshown'
      exact absurd hshown' (h.first d'.time (hup ▸ hin') _)
    · exact ⟨hup'.trans hup.symm, huser'.trans huser.symm⟩

/-! ## What the far end of a single connection does -/

theorem time_le_of_mem_batches (acts : List Act) : ∀ b : Batch, ∀ c ∈ batches b acts, b.time ≤ c.time := by
  induction acts with
  | nil =>
    intro b c hc
    obtain rfl := List.mem_singleton.mp hc
    exact Nat.le_refl _
  | cons act rest ih =>
    intro b c hc
    cases act with
    | send bs =>
      refine Nat.le_trans ?_ (ih _ c hc)
      split <;> exact Nat.le_refl _
    | close => exact ih { b with ends := true } c hc
    | wait ms =>
      rw [batches] at hc
      split at hc
      · exact ih b c hc
      · rcases List.mem_cons.mp hc with rfl | hc
        · exact Nat.le_refl _
        · exact Nat.le_trans (Nat.le_add_right _ _) (ih _ c hc)

theorem bytes_of_mem_batches (acts : List Act) : ∀ b : Batch, b.ends = true → b.bytes = [] →
    ∀ c ∈ batches b acts, c.bytes = [] := by
  induction acts with
  | nil =>
    intro b _ hbytes c hc
    rw [List.mem_singleton.mp hc, hbytes]
  | cons act rest ih =>
    intro b hends hbytes c hc
    cases act with
    | send bs =>
      rw [batches, if_pos hends] at hc
      exact ih b hends hbytes c hc
    | close => exact ih { b with ends := true } rfl hbytes c hc
    | wait ms =>
      rw [batches] at hc
      split at hc
      · exact ih b hends hbytes c hc
      · rcases List.mem_cons.mp hc with rfl | hc
        · exact hbytes
        · exact ih ⟨b.time + ms, [], b.ends⟩ hends rfl c hc

theorem timed_batches (acts : List Act) : ∀ b : Batch, Timed (batches b acts) := by
  induction acts with
  | nil => exact fun b => ⟨List.pairwise_singleton _ _, List.pairwise_singleton _ _⟩
  | cons act rest ih =>
    intro b
    cases act with
    | send bs => exact ih _
    | close => exact ih _
    | wait ms =>
      rw [batches]
      split
      · exact ih b
      · obtain ⟨hsorted, hfinal⟩ := ih ⟨b.time + ms, [], b.ends⟩
        refine ⟨List.pairwise_cons.mpr ⟨fun c hc => ?_, hsorted⟩,
          List.pairwise_cons.mpr ⟨fun c hc hends => ?_, hfinal⟩⟩
        · exact Nat.le_trans (Nat.le_add_right _ _) (time_le_of_mem_batches rest _ c hc)
        · exact bytes_of_mem_batches rest ⟨b.time + ms, [], b.ends⟩ hends rfl c hc

/-- What one far end does arrives in order of time. -/
theorem timed_schedule (acts : List Act) : Timed (schedule acts) := timed_batches acts _

/-! ## The judgement -/

/-- A connection is judged at the first moment before its time is up at which the bytes that
have arrived depart from the mark (a user), are a handshake (the data connection of its
session), or have ended before either (closed); if there is no such moment, it is a user when
its time is up. The bytes read, those unread and those that arrive afterwards are the bytes
sent. What it is and when that is decided follow from what has arrived by when, in whatever
chunks it came. -/
theorem decides_exactly (judgeDelay : Nat) {arrivals : List Batch} (hT : Timed arrivals) :
    Decided judgeDelay arrivals (decide judgeDelay arrivals) ∧
      ∀ arrivals', Timed arrivals' →
        (∀ t, t < judgeDelay → arrivedBy arrivals' t = arrivedBy arrivals t ∧
          overBy arrivals' t = overBy arrivals t) →
        (decide judgeDelay arrivals').time = (decide judgeDelay arrivals).time ∧
          (decide judgeDelay arrivals').judgement.kind = (decide judgeDelay arrivals).judgement.kind := by
  have hdecided : ∀ as, Timed as → Decided judgeDelay as (decide judgeDelay as) := fun as has =>
    decided_from as [] has ⟨⟨.inl List.nil_prefix, by decide⟩, nofun⟩ nofun
  exact ⟨hdecided arrivals hT, fun arrivals' hT' hsame =>
    (hdecided arrivals hT).unique (hdecided arrivals' hT') hsame⟩

/-- A handshake comes in over two tenths of a second, with two bytes of data behind it. -/
def dribblesIn : List Batch :=
  schedule [.send [0x7F, 0x54], .wait 100, .send [0x44, 0x43, 0, 0], .wait 100, .send [0, 7, 88, 89]]

/-- The same, byte by byte within each moment. -/
def dribblesInByBytes : List Batch :=
  dribblesIn.flatMap fun b => b.bytes.map fun byte => ⟨b.time, [byte], false⟩

theorem decides_exactly_dribblesIn :
    Timed dribblesIn ∧ decide 300 dribblesIn = ⟨.data 7 [88, 89], 200, []⟩ ∧
      Decided 300 dribblesIn (decide 300 dribblesIn) ∧
      (decide 300 dribblesInByBytes).judgement.kind = .data 7 ∧
      (decide 300 dribblesInByBytes).time = 200 := by
  have hT : Timed dribblesIn := timed_schedule _
  have hT' : Timed dribblesInByBytes := by
    constructor <;> decide +kernel
  obtain ⟨hdecided, hchunks⟩ := decides_exactly 300 hT
  obtain ⟨htime, hkind⟩ := hchunks dribblesInByBytes hT' (by decide +kernel)
  exact ⟨hT, by decide +kernel, hdecided, hkind.trans (by decide +kernel), htime.trans (by decide +kernel)⟩

end ReverseTunnel.Proxy
