import ReverseTunnel.Proofs.Wire.Drawing
import ReverseTunnel.Proofs.Wire.Fields

/-!
It makes no difference how a stream is cut.

What is proved (`fragments_agree`):
1. Neither a frame that was drawn nor a violation is changed by what arrives later
   (`Frame.decode_append`, `Frame.decode_append_of_error`), and of what is left pending nothing
   can be drawn. So drawing from bytes and then, with what they left, from more is drawing from
   both at once (`draw_append`), and chunks that arrive one after another are worth the bytes
   that they make up.
2. Messages that were written one after another are read back from every such cut.

What is assumed: only for the second, that each message fits into a frame.

What is not said: what is left pending after a violation, since nothing is drawn from it.
-/

namespace ReverseTunnel.Wire

variable {bs more : Bytes} {e : FrameError}

namespace Frame

theorem decode_append_of_error (h : decode bs = .error e) (more : Bytes) :
    decode (bs ++ more) = .error e := by
  unfold decode at h
  split at h
  · rename_i a b c d rest
    simp only [List.cons_append, decode]
    dsimp only at h
    split at h
    · rename_i hlarge
      rw [if_pos hlarge]
      exact h
    · rename_i hlarge
      rw [if_neg hlarge]
      split at h
      · rename_i hshort
        rw [if_pos hshort]
        exact h
      · rename_i hshort
        rw [if_neg hshort]
        split at h
        · simp only [List.cons_append]
          split at h
          · exact h
          · -- a body that is not all there is no violation
            split at h <;> cases h
        · cases h
  · cases h

end Frame

/-! ## Drawing in two goes -/

theorem draw_of_error (h : Frame.decode bs = .error e) : draw bs = ⟨[], bs, some e⟩ := by
  rw [draw, drawFrom]
  split
  · rename_i e' herror
    rw [herror] at h
    cases h
    rfl
  · rename_i hnone
    rw [hnone] at h
    cases h
  · rename_i f rest hsome
    rw [hsome] at h
    cases h

/-- Frame by frame: what holds where no frame is drawn, and of bytes whenever it holds of
what follows their first frame, holds of all bytes. -/
theorem draw_induction {P : Bytes → Prop} (waits : ∀ bs, Frame.decode bs = .ok none → P bs)
    (fails : ∀ bs e, Frame.decode bs = .error e → P bs)
    (draws : ∀ bs f rest, Frame.decode bs = .ok (some (f, rest)) → P rest → P bs) (bs : Bytes) :
    P bs := by
  induction hn : bs.length using Nat.strongRecOn generalizing bs with
  | ind n ih =>
    subst hn
    cases hdecode : Frame.decode bs with
    | error e => exact fails bs e hdecode
    | ok drawn =>
      match drawn with
      | none => exact waits bs hdecode
      | some (f, rest) => exact draws bs f rest hdecode (ih _ (Frame.decode_shrinks hdecode) rest rfl)

theorem draw_pending : ∀ bs, (draw bs).failure = none →
    draw (draw bs).pending = ⟨[], (draw bs).pending, none⟩ := by
  refine draw_induction ?waits ?fails ?draws
  case waits =>
    intro bs hdecode _
    rw [draw_of_none hdecode]
    exact draw_of_none hdecode
  case fails =>
    intro bs e hdecode hsound
    rw [draw_of_error hdecode] at hsound
    cases hsound
  case draws =>
    intro bs f rest hdecode ih hsound
    rw [draw_of_some hdecode] at hsound ⊢
    exact ih hsound

/-- What is drawn from bytes without a violation is drawn from longer ones too, and then
what is drawn from the rest of them. -/
theorem draw_append (more : Bytes) : ∀ bs, (draw bs).failure = none →
    draw (bs ++ more) = { draw ((draw bs).pending ++ more) with
      frames := (draw bs).frames ++ (draw ((draw bs).pending ++ more)).frames } := by
  refine draw_induction ?waits ?fails ?draws
  case waits =>
    intro bs hdecode _
    rw [draw_of_none hdecode]
    rfl
  case fails =>
    intro bs e hdecode hsound
    rw [draw_of_error hdecode] at hsound
    cases hsound
  case draws =>
    intro bs f rest hdecode ih hsound
    rw [draw_of_some hdecode] at hsound
    rw [draw_of_some (Frame.decode_append hdecode more), ih hsound, draw_of_some hdecode]
    rfl

theorem draw_append_of_failure (more : Bytes) : ∀ bs, (draw bs).failure = some e →
    (draw (bs ++ more)).frames = (draw bs).frames ∧ (draw (bs ++ more)).failure = some e := by
  refine draw_induction ?waits ?fails ?draws
  case waits =>
    intro bs hdecode hfailed
    rw [draw_of_none hdecode] at hfailed
    cases hfailed
  case fails =>
    intro bs e' hdecode hfailed
    rw [draw_of_error hdecode] at hfailed
    cases hfailed
    rw [draw_of_error hdecode, draw_of_error (Frame.decode_append_of_error hdecode more)]
    exact ⟨rfl, rfl⟩
  case draws =>
    intro bs f rest hdecode ih hfailed
    rw [draw_of_some hdecode] at hfailed
    obtain ⟨hframes, hfailure⟩ := ih hfailed
    rw [draw_of_some (Frame.decode_append hdecode more), draw_of_some hdecode]
    exact ⟨congrArg (f :: ·) hframes, hfailure⟩

/-! ## Chunks -/

namespace Stream

theorem feedAll_of_failure (chunks : List Bytes) : ∀ s : Stream, s.failure = some e →
    s.feedAll chunks = ([], s) := by
  induction chunks with
  | nil => exact fun s _ => rfl
  | cons chunk chunks ih =>
    intro s hfailed
    have hfeed : s.feed chunk = ([], s) := by
      obtain ⟨pending, failure⟩ := s
      cases hfailed
      rfl
    simp only [feedAll, hfeed, ih s hfailed, List.nil_append]

theorem feed_of_sound {s : Stream} (h : s.failure = none) (chunk : Bytes) :
    s.feed chunk = ((draw (s.pending ++ chunk)).frames,
      ⟨(draw (s.pending ++ chunk)).pending, (draw (s.pending ++ chunk)).failure⟩) := by
  simp only [feed, h]

/-- Chunks one after another yield what the bytes that they make up do, if nothing can be
drawn from what is pending. -/
theorem feedAll_eq (chunks : List Bytes) : ∀ s : Stream, s.failure = none →
    draw s.pending = ⟨[], s.pending, none⟩ →
    (s.feedAll chunks).1 = (draw (s.pending ++ chunks.flatten)).frames ∧
      (s.feedAll chunks).2.failure = (draw (s.pending ++ chunks.flatten)).failure ∧
      ((draw (s.pending ++ chunks.flatten)).failure = none →
        (s.feedAll chunks).2.pending = (draw (s.pending ++ chunks.flatten)).pending) := by
  induction chunks with
  | nil =>
    intro s hsound hdrained
    rw [List.flatten_nil, List.append_nil, hdrained]
    exact ⟨rfl, hsound, fun _ => rfl⟩
  | cons chunk chunks ih =>
    intro s hsound _
    rw [List.flatten_cons, ← List.append_assoc]
    simp only [feedAll, feed_of_sound hsound]
    -- the first chunk is drawn from, and then either nothing more or the others
    cases hfirst : (draw (s.pending ++ chunk)).failure with
    | some e =>
      obtain ⟨hframes, hfailure⟩ := draw_append_of_failure chunks.flatten _ hfirst
      rw [feedAll_of_failure chunks _ rfl, hframes, hfailure, List.append_nil]
      exact ⟨rfl, rfl, fun hnone => by cases hnone⟩
    | none =>
      obtain ⟨hframes, hfailure, hpending⟩ :=
        ih ⟨(draw (s.pending ++ chunk)).pending, none⟩ rfl (draw_pending _ hfirst)
      rw [draw_append chunks.flatten _ hfirst]
      exact ⟨congrArg (_ ++ ·) hframes, hfailure, hpending⟩

end Stream

/-! ## Messages -/

/-- The frames of several messages are appended to what is already in the output, one
after another. -/
def appendAll (ms : List Message) (output : Bytes) : Except FrameError Bytes :=
  ms.foldlM (fun output m => Frame.append m.kind.code m.body output) output

theorem appendAll_of_fits (ms : List Message) : ∀ output : Bytes, (∀ m ∈ ms, Frame.Fits m.body) →
    appendAll ms output = .ok (output ++ bytesOf ms) := by
  induction ms with
  | nil =>
    intro output _
    rw [bytesOf, List.map_nil, List.flatMap_nil, List.append_nil]
    rfl
  | cons m ms ih =>
    intro output hfits
    have hfirst : Frame.append m.kind.code m.body output =
        .ok (output ++ Frame.write m.kind.code m.body) :=
      Frame.append_eq_ok.mpr ⟨hfits m List.mem_cons_self, rfl⟩
    have hrest := ih (output ++ Frame.write m.kind.code m.body) fun k hk =>
      hfits k (List.mem_cons_of_mem m hk)
    rw [appendAll, List.foldlM_cons, hfirst]
    show appendAll ms _ = _
    rw [hrest, List.append_assoc]
    rfl

theorem draw_flatMap_bytes (fs : List Frame) (h : ∀ f ∈ fs, Frame.Fits f.body) :
    draw (fs.flatMap Frame.bytes) = ⟨fs, [], none⟩ := by
  induction fs with
  | nil => exact draw_of_none rfl
  | cons f fs ih =>
    have hrest := ih fun g hg => h g (List.mem_cons_of_mem f hg)
    rw [List.flatMap_cons, draw_of_some (Frame.decode_bytes (h f List.mem_cons_self) _), hrest]

theorem Message.ofBody_of_fits {m : Message} (h : Frame.Fits m.body) :
    Message.ofBody m.kind m.body = .ok m := by
  apply Message.ofBody_body
  have hlength : m.body.length = m.fields.length + 1 := rfl
  have hlimit : Frame.maxLength < Bytes.capacity 8 := by decide
  rw [Frame.Fits, Frame.totalLength, hlength] at h
  omega

/-- Messages that fit into frames are read as they were written. -/
theorem messagesIn_bytesOf {ms : List Message} (h : ∀ m ∈ ms, Frame.Fits m.body) :
    messagesIn (bytesOf ms) = ms := by
  have hframes : ∀ f ∈ ms.map Message.frame, Frame.Fits f.body := by
    intro f hf
    obtain ⟨m, hm, rfl⟩ := List.mem_map.mp hf
    exact h m hm
  rw [messagesIn, bytesOf, draw_flatMap_bytes _ hframes]
  induction ms with
  | nil => rfl
  | cons m rest ih =>
    have hrest : readable (rest.map Message.frame) = rest :=
      ih (fun k hk => h k (List.mem_cons_of_mem m hk)) fun f hf => hframes f (List.mem_cons_of_mem _ hf)
    have hm : Message.ofBody m.frame.kind m.frame.body = .ok m :=
      Message.ofBody_of_fits (h m List.mem_cons_self)
    rw [List.map_cons, readable, hm]
    simp only [hrest]

namespace Stream

/-- However a stream is cut into chunks, it yields the frames that it does in one piece,
it is violated by the same violation or not at all, and if it is not, the same is left
pending. And messages whose frames have the allowed length can be written one after
another, and are read back in order from chunks that make up what was written, with
nothing left. -/
theorem fragments_agree :
    (∀ chunks : List Bytes,
      (feedAll {} chunks).1 = (feed {} chunks.flatten).1 ∧
      (feedAll {} chunks).2.failure = (feed {} chunks.flatten).2.failure ∧
      ((feed {} chunks.flatten).2.failure = none →
        (feedAll {} chunks).2.pending = (feed {} chunks.flatten).2.pending)) ∧
    (∀ ms : List Message, (∀ m ∈ ms, Frame.Fits m.body) →
      ∃ bs, appendAll ms [] = .ok bs ∧ ∀ chunks : List Bytes, chunks.flatten = bs →
        ((feedAll {} chunks).1.map fun f => Message.ofBody f.kind f.body) = ms.map .ok ∧
        (feedAll {} chunks).2 = {}) := by
  have hall := fun chunks : List Bytes => feedAll_eq chunks {} rfl (draw_of_none rfl)
  refine ⟨hall, ?_⟩
  intro ms hfits
  have hframes : ∀ f ∈ ms.map Message.frame, Frame.Fits f.body := by
    intro f hf
    obtain ⟨m, hm, rfl⟩ := List.mem_map.mp hf
    exact hfits m hm
  refine ⟨bytesOf ms, appendAll_of_fits ms [] hfits, ?_⟩
  intro chunks hchunks
  obtain ⟨hdrawn, hfailure, hpending⟩ := hall chunks
  have hwhole : draw (([] : Bytes) ++ chunks.flatten) = ⟨ms.map Message.frame, [], none⟩ := by
    rw [hchunks]
    exact draw_flatMap_bytes _ hframes
  rw [hwhole] at hdrawn hfailure hpending
  refine ⟨?_, ?_⟩
  · rw [hdrawn, List.map_map]
    exact List.map_congr_left fun m hm => Message.ofBody_of_fits (hfits m hm)
  · rw [show (feedAll {} chunks).2 = ⟨_, _⟩ from rfl, hpending rfl, hfailure]

/-- A heartbeat and an announcement. -/
def twoMessages : List Message := [.heartbeat 7, .openDataConn 1]

theorem fragments_agree_twoMessages :
    (∀ m ∈ twoMessages, Frame.Fits m.body) ∧
      ∃ bs, appendAll twoMessages [] = .ok bs ∧
        -- cut within the length of the first frame and within the body of the second
        ((feedAll {} [bs.take 3, (bs.drop 3).take 20, bs.drop 23]).1.map fun f =>
          Message.ofBody f.kind f.body) = [.ok (.heartbeat 7), .ok (.openDataConn 1)] := by
  have hfits : ∀ m ∈ twoMessages, Frame.Fits m.body := by decide
  obtain ⟨bs, happend, hcut⟩ := fragments_agree.2 twoMessages hfits
  refine ⟨hfits, bs, happend, ?_⟩
  cases happend
  exact (hcut _ rfl).1

end Stream

end ReverseTunnel.Wire
