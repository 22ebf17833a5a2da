import ReverseTunnel.Proofs.Seal.Envelope
import ReverseTunnel.Proofs.Server.Flushing
import ReverseTunnel.Proofs.Server.NameContest
import ReverseTunnel.Proofs.Text.Quoting

/-!
Who gets to know that a request was refused, and why.

As long as a connection is not closed, all that is emitted on it fits into frames
(`fits_of_open`). A refusal quotes the request, and may be too long for a frame.

What is proved:
1. On a connection that is kept, a refusal that fits comes after everything that was emitted
   before, and then the connection ends; one that is too long is never sent
   (`refusal_is_reported`).
2. That a name is taken fits for every name of up to 174753 bytes (`fits_nameTaken`); one more,
   and there are names for which it does not, though the request for them did
   (`refusal_is_lost`).

What is assumed: for the first, that the transport does not fail and the far end keeps reading
(`Control.Carrier.Keeping`), and that it reads fast enough for the writer to stop before its time
is up (`Control.Carrier.CutOff`). A connection that is cut off may get no refusal, of whatever
length.

What is not said: on what ground a request is refused (`Proofs.Server.Grounds`).
-/

namespace ReverseTunnel.Server

open Control
open Session (ConnId IdSource)
open Wire (Frame Message bytesOf messagesIn)

/-! ## What fits into a frame -/

theorem fits_refused_iff (error : ProvisionError) : Frame.Fits (refused error).body ↔
    error.message.utf8ByteSize + 26 ≤ Frame.maxLength := by
  have hlength : (Text.Utf8.encode error.message).length = error.message.utf8ByteSize := rfl
  simp only [Frame.Fits, Frame.totalLength, Frame.headerLength, refused, Message.body,
    Wire.Payload.encode, Message.fields, Wire.Field.writeBool, Wire.Field.writeText,
    Wire.Field.length_writeBytes, Wire.Field.writeU64, Wire.Field.writeU16, Bytes.length_le,
    List.length_cons, List.length_append, List.length_nil, if_neg Bool.false_ne_true, hlength]
  omega

theorem utf8ByteSize_nameTaken (name : String) :
    (ProvisionError.nameTaken name).message.utf8ByteSize =
      (Text.Quoted.encode name).utf8ByteSize + 29 := by
  have hbefore : "proxy name ".utf8ByteSize = 11 := by decide
  have hafter : " is already in use".utf8ByteSize = 18 := by decide
  rw [ProvisionError.message, String.utf8ByteSize_append, String.utf8ByteSize_append, hbefore, hafter]
  omega

/-- That a name is taken can be told of every name of up to 174753 bytes. -/
theorem fits_nameTaken {name : String} (h : name.utf8ByteSize ≤ 174753) :
    Frame.Fits (refused (.nameTaken name)).body := by
  have hquoted := Text.Quoted.utf8ByteSize_encode_le name
  rw [fits_refused_iff, utf8ByteSize_nameTaken, Frame.maxLength]
  omega

variable {o : Options} {authenticated goesOn : Bool} {m : Message} {ms reply replies : List Message}

/-- An answer after which a connection goes on fits into a frame. -/
theorem Answer.fits (h : Answer o authenticated m reply goesOn) (hgoes : goesOn = true) :
    ∀ k ∈ reply, Frame.Fits k.body := by
  cases h with
  | accepts | rejects => decide
  | echoes timestamp serverTime =>
    simp [Frame.Fits, Frame.totalLength, Frame.headerLength, Frame.maxLength, Message.body,
      Wire.Payload.encode, Message.fields, Wire.Field.writeU64, Bytes.length_le]
  | grants sealedRequest port =>
    simp [Frame.Fits, Frame.totalLength, Frame.headerLength, Frame.maxLength, Message.body, granted,
      Wire.Payload.encode, Message.fields, Wire.Field.writeU64, Wire.Field.writeU16,
      Wire.Field.writeBool, Wire.Field.writeText, Wire.Field.length_writeBytes, Bytes.length_le,
      Text.Utf8.encode]
  | dropsStray | passesOver =>
    intro k hk
    cases hk
  | refuses => cases hgoes

theorem Conversation.fits (h : Conversation o ms replies goesOn) : goesOn = true →
    ∀ k ∈ replies, Frame.Fits k.body := by
  induction h with
  | nil => nofun
  | snoc h ha ih =>
    intro hgoes k hk
    rcases List.mem_append.mp hk with hk | hk
    · exact ih rfl k hk
    · exact ha.fits hgoes k hk

theorem fits_openDataConn (session : UInt32) : Frame.Fits (Message.openDataConn session).body := by
  simp [Frame.Fits, Frame.totalLength, Frame.headerLength, Frame.maxLength, Message.body,
    Wire.Payload.encode, Message.fields, Wire.Field.writeU32, Bytes.length_le]

section Moments

variable {a : Seal.Aead} {ids : IdSource} {course : Course (Run.step a) (Run.start o ids)} {c : ConnId}
  {n : Nat} {l : Link}

/-- On a connection that is not closed, all that was emitted fits into frames. -/
theorem fits_of_open (hl : (course.state n).link? c = some l) (hopen : l.closed = false) :
    ∀ m ∈ emittedBefore course c n, Frame.Fits m.body := by
  have hgoing : l.writerStopped = false := by
    rw [Bool.eq_false_iff]
    intro hw
    cases hopen.symm.trans (closed_of_stopped course c n hl hw)
  obtain ⟨begun, hwrites⟩ := writes_of_open course c n hl hopen
  obtain ⟨begun', accepted, ms, goesOn, hwrites', htalks⟩ := (kept course c n).dialogue l hl
  obtain ⟨-, rfl⟩ := htalks.going hopen
  -- what was begun fits, and what waits are announcements and answers
  have haccepted : ∀ m ∈ accepted, Frame.Fits m.body := by
    intro m hm
    by_cases hkind : m.kind = .openDataConn
    · cases m with
      | openDataConn session => exact fits_openDataConn session
      | _ => cases hkind
    · exact htalks.answers.fits rfl m (List.mem_filter.mpr ⟨hm, by simpa using hkind⟩)
  intro m hm
  rw [← (hwrites.going hgoing).2] at hm
  rcases List.mem_append.mp hm with hm | hm
  · exact hwrites.fits m hm
  · exact haccepted m ((hwrites'.going hgoing).2 ▸ List.mem_append_right begun' hm)

/-- From a moment on, the far end of a connection has got the given messages, and nothing
more. -/
def GotAll (course : Course (Run.step a) (Run.start o ids)) (c : ConnId) (k : Nat)
    (ms : List Message) : Prop :=
  ∀ j, k ≤ j → (record course c j).sent = bytesOf ms ∧ messagesIn (record course c j).sent = ms

variable {bind : Binder} {rest : Link} {sealedRequest : Bytes} {error : ProvisionError}

theorem closing_of_refused (he : course.happens n = .handle c bind)
    (hl : (course.state n).link? c = some l) (htake : l.take? = some (.openDataPort sealedRequest, rest))
    (haccepts : l.accepts = true)
    (hfails : provision (course.state n).options a bind (course.state n).now
      (course.state n).registry c sealedRequest = .error error) :
    (carrier c).Closing (course.state (n + 1)) (emittedBefore course c n ++ [refused error])
        (record course c (n + 1)).sent ∧
      ¬(carrier c).Stopped (course.state (n + 1)) := by
  have hopen := Link.open_of_accepts haccepts
  obtain ⟨begun, hwrites⟩ := writes_of_open course c n hl hopen
  obtain ⟨-, hrest⟩ := Link.take?_eq_some htake
  have hroom : rest.accepts = true := by
    rw [hrest]
    exact haccepts
  have hlink : (course.state (n + 1)).link? c =
      some { rest with outbox := rest.outbox ++ [refused error], closed := true } := by
    rw [Course.state, he, (Run.refuses_of_provision hl htake hfails).answer,
      Link.emitted_of_accepts hroom]
    rfl
  have hsent : (record course c (n + 1)).sent = (record course c n).sent := by
    have hquiet : sentOn c (course.effectsAt n) = [] := by
      rw [Course.effectsAt, he]
      exact sentOn_of_quiet (Run.confined_handle a bind hl htake).quiet
    rw [record, Record.after, hquiet, List.append_nil]
  have hgoing : rest.writerStopped = l.writerStopped := by rw [hrest]
  rw [hsent]
  refine ⟨⟨_, begun, hlink, rfl, hwrites.fits, hwrites.order.trans (List.prefix_append _ _),
    hwrites.onWire, fun hw => ?_⟩, ?_⟩
  · obtain ⟨hwritten, hall⟩ := hwrites.going (hgoing ▸ hw)
    rw [← hall, List.append_assoc, hrest]
    exact ⟨hwritten, rfl⟩
  · rintro ⟨k, hk, -, hw⟩
    cases hlink.symm.trans hk
    cases hopen.symm.trans (closed_of_stopped course c n hl (hgoing ▸ hw))

/-- What was emitted on a connection before a request was refused goes out, and the refusal
after it if it fits into a frame. -/
theorem got_all_of_refused (hc : (carrier c).Keeping course)
    (hintime : ∀ k, ¬(carrier c).CutOff course k) (he : course.happens n = .handle c bind)
    (hl : (course.state n).link? c = some l) (htake : l.take? = some (.openDataPort sealedRequest, rest))
    (haccepts : l.accepts = true)
    (hfails : provision (course.state n).options a bind (course.state n).now
      (course.state n).registry c sealedRequest = .error error) :
    ∃ k, n < k ∧
      (Frame.Fits (refused error).body →
        GotAll course c k (emittedBefore course c n ++ [refused error]) ∧
          course.effectsAt k = [.link c .sentEnd] ∧
          ∀ j, j < k → .link c .sentEnd ∉ course.effectsAt j) ∧
      (¬Frame.Fits (refused error).body → GotAll course c k (emittedBefore course c n)) := by
  obtain ⟨hclosing, hgoing⟩ := closing_of_refused he hl htake haccepts hfails
  obtain ⟨k, hnk, hsent, hends⟩ := delivers hc hintime hclosing hgoing
  have hbefore := fits_of_open hl (Link.open_of_accepts haccepts)
  have htaken : ∀ m ∈ emittedBefore course c n, decide (Frame.Fits m.body) = true := by
    simpa using hbefore
  rw [List.takeWhile_append_of_pos htaken] at hsent
  have hgot {ms : List Message} (hms : ∀ j, k ≤ j → (record course c j).sent = bytesOf ms)
      (hfits : ∀ m ∈ ms, Frame.Fits m.body) : GotAll course c k ms := by
    refine fun j hkj => ⟨hms j hkj, ?_⟩
    rw [hms j hkj]
    exact Wire.messagesIn_bytesOf hfits
  refine ⟨k, hnk, fun hfits => ?_, fun hlong => ?_⟩
  · have hall : ∀ m ∈ emittedBefore course c n ++ [refused error], Frame.Fits m.body := by
      intro m hm
      rcases List.mem_append.mp hm with hm | hm
      · exact hbefore m hm
      · rw [List.mem_singleton.mp hm]
        exact hfits
    rw [List.takeWhile_cons_of_pos (by simpa using hfits), List.takeWhile_nil] at hsent
    exact ⟨hgot hsent hall, hends hall⟩
  · rw [List.takeWhile_cons_of_neg (by simpa using hlong), List.append_nil] at hsent
    exact hgot hsent hbefore

/-- On a connection that accepts the answer, whose far end keeps reading and whose writer is not
cut off, a request that is refused is answered with the reason after everything that was
emitted before, and then the far end is told that nothing more comes, if that answer fits into
a frame. If it does not, the far end gets what was emitted before, and never an answer. -/
theorem refusal_is_reported (hc : (carrier c).Keeping course)
    (hintime : ∀ k, ¬(carrier c).CutOff course k) (he : course.happens n = .handle c bind)
    (hl : (course.state n).link? c = some l) (htake : l.take? = some (.openDataPort sealedRequest, rest))
    (haccepts : l.accepts = true)
    (hfails : provision (course.state n).options a bind (course.state n).now
      (course.state n).registry c sealedRequest = .error error) :
    ∃ k, n < k ∧
      (error.message.utf8ByteSize + 26 ≤ Frame.maxLength →
        GotAll course c k (emittedBefore course c n ++ [.openDataPortAck false error.message 0 0]) ∧
          course.effectsAt k = [.link c .sentEnd] ∧
          ∀ j, j < k → .link c .sentEnd ∉ course.effectsAt j) ∧
      (Frame.maxLength < error.message.utf8ByteSize + 26 →
        GotAll course c k (emittedBefore course c n)) := by
  obtain ⟨k, hnk, hfits, hlong⟩ := got_all_of_refused hc hintime he hl htake haccepts hfails
  rw [fits_refused_iff] at hfits hlong
  exact ⟨k, hnk, hfits, fun h => hlong (Nat.not_le.mpr h)⟩

end Moments

/-- A connection comes in and asks for the name web without a token. -/
def asksWithoutToken : Course (Run.step Run.webCipher) (Run.start Run.webOptions .fresh) :=
  .thenInTurn [.connect none, .link ⟨1⟩ (.receive (bytesOf [.openDataPort Run.webSealed])),
    .link ⟨1⟩ .read, .handle ⟨1⟩ Run.bindsAll] 3 (carrier ⟨1⟩).writerTurn

theorem refusal_is_reported_asksWithoutToken :
    (carrier ⟨1⟩).Keeping asksWithoutToken ∧ (∀ k, ¬(carrier ⟨1⟩).CutOff asksWithoutToken k) ∧
      ∃ k, GotAll asksWithoutToken ⟨1⟩ k [.openDataPortAck false "not authenticated" 0 0] ∧
        asksWithoutToken.effectsAt k = [.link ⟨1⟩ .sentEnd] := by
  have hkeeping : (carrier ⟨1⟩).Keeping asksWithoutToken :=
    Carrier.keeping_thenInTurn rfl (by simp [carrier])
  have hintime (k : Nat) : ¬(carrier ⟨1⟩).CutOff asksWithoutToken k :=
    Carrier.not_cutOff_thenInTurn rfl (by simp [carrier])
  have hlink : (asksWithoutToken.state 3).link? ⟨1⟩ = some { inbox := [.openDataPort Run.webSealed] } := by
    decide +kernel
  have hhandles : asksWithoutToken.happens 3 = .handle ⟨1⟩ Run.bindsAll := rfl
  have hfails : provision (asksWithoutToken.state 3).options Run.webCipher Run.bindsAll
      (asksWithoutToken.state 3).now (asksWithoutToken.state 3).registry ⟨1⟩ Run.webSealed =
        .error .unauthenticated := by
    rw [provision, if_pos (by decide +kernel)]
  obtain ⟨k, -, hfits, -⟩ := refusal_is_reported hkeeping hintime hhandles hlink rfl rfl hfails
  obtain ⟨hall, hend, -⟩ := hfits (by decide +kernel)
  have hbefore : emittedBefore asksWithoutToken ⟨1⟩ 3 = [] := by decide +kernel
  rw [hbefore] at hall
  exact ⟨hkeeping, hintime, k, hall, hend⟩

/-! ## A name that is too long -/

section LongName

variable {a : Seal.Aead} {o : Options} {ids : IdSource} {course : Course (Run.step a) (Run.start o ids)}
  {c : ConnId} {k : Nat}

/-- From one moment to a later one, the link of a connection and what is remembered come to a
state, messages are emitted on it, and elsewhere nothing changes. -/
structure Comes (course : Course (Run.step a) (Run.start o ids)) (c : ConnId) (m n : Nat) (l : Link)
    (registry : Registry) (emitted : List Message) : Prop where
  own : (course.state n).link? c = some l
  registry : (course.state n).registry = registry
  emitted : emittedBefore course c n = emittedBefore course c m ++ emitted
  others : ∀ d, d ≠ c → (course.state n).link? d = (course.state m).link? d

theorem Comes.step {m n : Nat} {l l' : Link} {y : LinkEvent} {registry : Registry}
    {emitted : List Message} (h : Comes course c m n l registry emitted)
    (he : course.happens n = .link c y) (hstep : (l.step y).1 = l') (hgoes : l'.stage ≠ .finished) :
    Comes course c m (n + 1) l' registry emitted := by
  have hstate : course.state (n + 1) = (course.state n).setLink c l' := by
    rw [Course.state, he]
    change ((course.state n).onLink c y).1 = _
    rw [Run.onLink_of_link? y h.own, hstep, if_neg fun hfinishes => hgoes hfinishes.2]
  refine ⟨?_, ?_, ?_, fun d hd => ?_⟩
  · rw [hstate, Run.link?_setLink, if_pos rfl, h.own]
    rfl
  · rw [hstate]
    exact h.registry
  · rw [emittedBefore, he, Run.emittedOn_of_none (by simp [Event.ofProxy?]) rfl, List.append_nil,
      h.emitted]
  · rw [hstate, Run.link?_setLink, if_neg hd]
    exact h.others d hd

/-- A connection sends a token and a request, both are read, and the token is handled. -/
def comesWith (c : ConnId) (bind : Binder) (sealedRequest : Bytes) : List Event :=
  [.link c (.receive (bytesOf [.auth "", .openDataPort sealedRequest])), .link c .read, .link c .read,
    .handle c bind]

/-- Then the request waits, and the connection is authenticated if the token is admitted. -/
theorem comes_with (bind : Binder) {sealedRequest : Bytes}
    (hfits : Frame.Fits (Message.openDataPort sealedRequest).body)
    (hadmits : o.normalize.admits "" = true) (hl : (course.state k).link? c = some {})
    (hevents : ∀ i (h : i < 4), course.happens (k + i) = (comesWith c bind sealedRequest)[i]) :
    Comes course c k (k + 4) { inbox := [.openDataPort sealedRequest], outbox := [authVerdict true] }
      ((course.state k).registry.authenticate c) [authVerdict true] := by
  have hreceive (bs : Bytes) : (({} : Link).step (.receive bs)).1 = { unread := bs } := rfl
  have hfirst : (({ unread := bytesOf [.auth "", .openDataPort sealedRequest] } : Link).read).1 =
      { unread := bytesOf [.openDataPort sealedRequest], inbox := [.auth ""] } :=
    Link.read_bytes (m := .auth "") rfl (by decide) (Wire.bytesOf_cons _ _) (by simp [inboxLimit])
  have hsecond : (({ unread := bytesOf [.openDataPort sealedRequest], inbox := [.auth ""] } :
      Link).read).1 = { inbox := [.auth "", .openDataPort sealedRequest] } :=
    Link.read_bytes (m := .openDataPort sealedRequest) rfl hfits (Wire.bytesOf_cons _ [])
      (by simp [inboxLimit])
  have hstart : Comes course c k k {} (course.state k).registry [] :=
    ⟨hl, rfl, (List.append_nil _).symm, fun _ _ => rfl⟩
  have hreceived := hstart.step (hevents 0 (by decide)) (hreceive _) nofun
  have htoken := hreceived.step (hevents 1 (by decide)) hfirst nofun
  have hrequest := htoken.step (hevents 2 (by decide)) hsecond nofun
  have hlast : course.happens (k + 3) = .handle c bind := hevents 3 (by decide)
  have hreact : react (course.state (k + 3)).options a bind (course.state (k + 3)).now
      (course.state (k + 3)).registry c (.auth "") =
        ((course.state (k + 3)).registry.authenticate c, [.emit (authVerdict true)]) := by
    rw [options_eq course (k + 3), react, onAuth, if_pos hadmits]
  have hhandle := Run.confined_handle (m := .auth "") a bind hrequest.own rfl
  rw [hreact, hrequest.registry] at hhandle
  have hstate : course.state (k + 4) = ((course.state (k + 3)).handle a bind c).1 := by
    rw [Course.state, hlast]
    rfl
  refine ⟨?_, ?_, ?_, fun d hd => ?_⟩
  · rw [hstate, hhandle.own, hrequest.own]
    rfl
  · rw [hstate, hhandle.registry]
  · rw [emittedBefore, hlast, Run.emittedOn_handle (m := .auth "") hrequest.own rfl, hreact,
      hrequest.emitted, List.append_nil]
    rfl
  · rw [hstate, hhandle.others d hd, hrequest.others d hd]

theorem emittedBefore_of_elsewhere {n : Nat} (h : ∀ i < n, (course.happens i).about? ≠ some c) :
    emittedBefore course c n = [] := by
  induction n with
  | zero => rfl
  | succ n ih =>
    have habout := h n (Nat.lt_succ_self n)
    have hnone := Run.emittedOn_of_none (a := a) (fun he => habout (Event.about?_of_ofProxy? he))
      (heardOn_of_about? (r := course.state n) habout).2
    rw [emittedBefore, ih fun i hi => h i (Nat.lt_succ_of_lt hi), hnone, List.append_nil]

end LongName

/-- A request for a name of delete characters, and its sealed form under the secret. -/
def deletesRequest (n : Nat) : Wire.Request :=
  { secret := "s", name := Text.deletes n, host := none, port := 0 }

def deletesSealed (n : Nat) : Bytes :=
  Seal.sealRequest Seal.aes256Gcm "s" (List.replicate Seal.nonceLength 0) (deletesRequest n)

theorem length_fields_deletesRequest (n : Nat) : (deletesRequest n).fields.length = n + 20 := by
  have hname : (Text.Utf8.encode (Text.deletes n)).length = n := Text.utf8ByteSize_deletes n
  have hsecret : (Text.Utf8.encode "s").length = 1 := by decide
  simp only [deletesRequest, Wire.Request.fields, Wire.Field.writeText, Wire.Field.length_writeBytes,
    Wire.Field.writeOption, Wire.Field.writeU16, Bytes.length_le, List.length_append,
    List.length_cons, List.length_nil, hname, hsecret]
  omega

theorem fits_deletesSealed {n : Nat} (hn : n ≤ 1048512) :
    Frame.Fits (Message.openDataPort (deletesSealed n)).body := by
  have hlength : (deletesSealed n).length = n + 49 := by
    rw [deletesSealed, Seal.length_sealRequest Seal.aes256Gcm_addsTag, length_fields_deletesRequest,
      List.length_replicate, Seal.nonceLength]
    omega
  simp only [Frame.Fits, Frame.totalLength, Frame.headerLength, Frame.maxLength, Message.body,
    Wire.Payload.encode, Message.fields, Wire.Field.length_writeBytes, List.length_cons, hlength]
  omega

theorem valid_deletesSealed {n : Nat} (hn : 0 < n) (hmost : n ≤ 1048512) {registry : Registry}
    {c : ConnId} (hauthenticated : registry.isAuthenticated c = true)
    (hsingle : registry.owns c = false) :
    Valid Run.webOptions.normalize Seal.aes256Gcm registry c (deletesSealed n) (deletesRequest n) where
  authenticated := hauthenticated
  opens := by
    have hkey : Run.webOptions.normalize.sealKey = "s" := by decide
    have hfields : (deletesRequest n).fields.length < Bytes.capacity 8 := by
      rw [length_fields_deletesRequest]
      have hcapacity : 1048532 < Bytes.capacity 8 := by decide
      omega
    rw [hkey]
    exact Seal.openRequest_sealRequest Seal.aes256Gcm_opens Seal.aes256Gcm_addsTag "s"
      List.length_replicate hfields
  secret := by
    have hsecret : Run.webOptions.normalize.secret = "s" := by decide
    rw [hsecret]
    rfl
  named := by
    intro hempty
    have hsize := Text.utf8ByteSize_deletes n
    rw [show (deletesRequest n).name = Text.deletes n from rfl, Text.trim_deletes] at hempty
    rw [hempty] at hsize
    have hzero : ("" : String).utf8ByteSize = 0 := by decide
    omega
  single := hsingle

/-- Two connections ask for one name of delete characters, one after the other, and the writer
of the later one gets on. -/
def deletesTwice (n : Nat) : Course (Run.step Seal.aes256Gcm) (Run.start Run.webOptions .fresh) :=
  .thenInTurn ([.connect none, .connect none] ++ comesWith ⟨1⟩ Run.bindsAll (deletesSealed n) ++
    [.handle ⟨1⟩ Run.bindsAll] ++ comesWith ⟨2⟩ Run.bindsAll (deletesSealed n) ++
    [.handle ⟨2⟩ Run.bindsAll]) 3 (carrier ⟨2⟩).writerTurn

section

variable {n : Nat}

theorem options_deletesTwice (k : Nat) :
    ((deletesTwice n).state k).options = Run.webOptions.normalize := options_eq (deletesTwice n) k

theorem granted_deletesTwice (hn : 0 < n) (hmost : n ≤ 1048512) {k : Nat} {c : ConnId}
    (hauthenticated : ((deletesTwice n).state k).registry.isAuthenticated c = true)
    (hnone : ((deletesTwice n).state k).registry.proxies = []) :
    ∃ p, p.owner = c ∧ p.name = Text.deletes n ∧
      provision ((deletesTwice n).state k).options Seal.aes256Gcm Run.bindsAll
        ((deletesTwice n).state k).now ((deletesTwice n).state k).registry c (deletesSealed n) =
          .ok p := by
  have hvalid := valid_deletesSealed hn hmost hauthenticated (by simp [Registry.owns, hnone])
  have hname : Text.trim (deletesRequest n).name = Text.deletes n := Text.trim_deletes n
  refine ⟨⟨c, Text.trim (deletesRequest n).name, ⟨"h", 7⟩, ((deletesTwice n).state k).now⟩, rfl, hname,
    ?_⟩
  rw [options_deletesTwice, provision_of_valid hvalid, if_neg (by simp [Registry.isTaken, hnone])]
  rfl

/-- The first request is granted, and nothing happens on the second connection meanwhile. -/
theorem first_deletesTwice (hn : 0 < n) (hmost : n ≤ 1048512) :
    ((deletesTwice n).state 7).link? ⟨2⟩ = some {} ∧
    ∃ p, p.owner = ⟨1⟩ ∧ p.name = Text.deletes n ∧
      ((deletesTwice n).state 7).registry.proxies = [p] := by
  have hcomes : Comes (deletesTwice n) ⟨1⟩ 2 6 _ _ _ :=
    comes_with Run.bindsAll (fits_deletesSealed hmost) (by decide) rfl (by
      intro i hi
      match i, hi with
      | 0, _ | 1, _ | 2, _ | 3, _ => rfl)
  have hnone : ((deletesTwice n).state 6).registry.proxies = [] := by
    rw [hcomes.registry]
    rfl
  have hadmitted : ((deletesTwice n).state 6).registry.isAuthenticated ⟨1⟩ = true := by
    rw [hcomes.registry]
    rfl
  obtain ⟨p, howner, hname, hgranted⟩ := granted_deletesTwice hn hmost hadmitted hnone
  have hstate : (deletesTwice n).state (6 + 1) = _ :=
    Course.state_succ (show (deletesTwice n).happens 6 = .handle ⟨1⟩ Run.bindsAll from rfl)
  have hothers := (Run.confined_handle Seal.aes256Gcm Run.bindsAll hcomes.own rfl).others ⟨2⟩
    (by decide)
  refine ⟨?_, p, howner, hname, ?_⟩
  · rw [hstate]
    exact hothers.trans (hcomes.others ⟨2⟩ (by decide))
  · rw [hstate, (Run.grants_of_provision hcomes.own rfl hgranted).registry, Registry.register, hnone]
    rfl

theorem second_deletesTwice (hn : 0 < n) (hmost : n ≤ 1048512) :
    emittedBefore (deletesTwice n) ⟨2⟩ 11 = [authVerdict true] ∧
    ((deletesTwice n).state 11).link? ⟨2⟩ =
      some { inbox := [.openDataPort (deletesSealed n)], outbox := [authVerdict true] } ∧
    provision ((deletesTwice n).state 11).options Seal.aes256Gcm Run.bindsAll
      ((deletesTwice n).state 11).now ((deletesTwice n).state 11).registry ⟨2⟩ (deletesSealed n) =
        .error (.nameTaken (Text.deletes n)) := by
  obtain ⟨hlink, p, howner, hname, hproxies⟩ := first_deletesTwice hn hmost
  have hcomes : Comes (deletesTwice n) ⟨2⟩ 7 11 _ _ _ :=
    comes_with Run.bindsAll (fits_deletesSealed hmost) (by decide) hlink (by
      intro i hi
      match i, hi with
      | 0, _ | 1, _ | 2, _ | 3, _ => rfl)
  have hquiet : emittedBefore (deletesTwice n) ⟨2⟩ 7 = [] :=
    emittedBefore_of_elsewhere (by
      intro i hi
      match i, hi with
      | 0, _ | 1, _ | 2, _ | 3, _ | 4, _ | 5, _ | 6, _ => exact nofun)
  have hlater : ((deletesTwice n).state 11).registry.proxies = [p] := by
    rw [hcomes.registry, Registry.proxies_authenticate, hproxies]
  have hadmitted : ((deletesTwice n).state 11).registry.isAuthenticated ⟨2⟩ = true := by
    rw [hcomes.registry, Registry.isAuthenticated_authenticate]
    simp
  have hvalid := valid_deletesSealed hn hmost hadmitted (by simp [Registry.owns, hlater, howner])
  have hwanted : Text.trim (deletesRequest n).name = Text.deletes n := Text.trim_deletes n
  have htaken : ((deletesTwice n).state 11).registry.isTaken (Text.deletes n) = true := by
    simp [Registry.isTaken, hlater, hname]
  refine ⟨by rw [hcomes.emitted, hquiet]; rfl, hcomes.own, ?_⟩
  rw [options_deletesTwice, provision_of_valid hvalid, hwanted, if_pos htaken]

end

/-- The answer does not fit into a frame, though the request did: the connection gets to know
that its token was admitted, and never anything more. -/
theorem refusal_is_lost :
    (carrier ⟨2⟩).Keeping (deletesTwice 174754) ∧
    (∀ k, ¬(carrier ⟨2⟩).CutOff (deletesTwice 174754) k) ∧
    (∃ l rest, ((deletesTwice 174754).state 11).link? ⟨2⟩ = some l ∧
      l.take? = some (.openDataPort (deletesSealed 174754), rest) ∧ l.accepts = true) ∧
    (deletesTwice 174754).happens 11 = .handle ⟨2⟩ Run.bindsAll ∧
    provision ((deletesTwice 174754).state 11).options Seal.aes256Gcm Run.bindsAll
      ((deletesTwice 174754).state 11).now ((deletesTwice 174754).state 11).registry ⟨2⟩
        (deletesSealed 174754) = .error (.nameTaken (Text.deletes 174754)) ∧
    ∃ k, GotAll (deletesTwice 174754) ⟨2⟩ k [authVerdict true] := by
  obtain ⟨hbefore, hlink, hfails⟩ := second_deletesTwice (n := 174754) (by decide) (by decide)
  have hkeeping (n : Nat) : (carrier ⟨2⟩).Keeping (deletesTwice n) :=
    Carrier.keeping_thenInTurn rfl (by simp [carrier, comesWith])
  have hintime (n k : Nat) : ¬(carrier ⟨2⟩).CutOff (deletesTwice n) k :=
    Carrier.not_cutOff_thenInTurn rfl (by simp [carrier, comesWith])
  have hhappens (n : Nat) : (deletesTwice n).happens 11 = .handle ⟨2⟩ Run.bindsAll := rfl
  have hlong : ¬Frame.Fits (refused (.nameTaken (Text.deletes 174754))).body := by
    rw [fits_refused_iff, utf8ByteSize_nameTaken, Text.utf8ByteSize_encode_deletes, Frame.maxLength]
    decide
  obtain ⟨k, -, -, hgot⟩ :=
    got_all_of_refused (hkeeping 174754) (hintime 174754) (hhappens 174754) hlink rfl (by decide) hfails
  rw [hbefore] at hgot
  exact ⟨hkeeping 174754, hintime 174754, ⟨_, _, hlink, rfl, by decide⟩, hhappens 174754, hfails, k,
    hgot hlong⟩

end ReverseTunnel.Server
