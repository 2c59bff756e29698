import PeerLedger.Notifications.Authentication
import PeerLedger.Notifications.Pipeline

/-!
# The live activity of a user

`ActivityRealtimeGateway` accepts sockets that present an access token, puts each into the room of its
user, and sends the events that the consumer tells a user about to the sockets in the room of the
user.  `LiveActivity` puts the gateway, the auth service and the whole way of an event from its commit
together: requests for tokens, handshakes, connections and lost connections come in any order.

Every socket shows the activity of the user to whom its token was issued, each event once, and nothing
else (`sockets_show_own_activity`).
-/

namespace PeerLedger

namespace Notifications

open Transactions Formats

/-! ### The gateway -/

/-- What is sent to a socket about an event. -/
structure ActivityFrame where
  eventId : String
  eventType : String
  occurredAt : String
  aggregate : Option Json
  payload : Json

def activityFrame (event : IntegrationEventEnvelope) : ActivityFrame :=
  { eventId := event.eventId, eventType := event.eventType, occurredAt := event.occurredAt,
    aggregate := property event.value "aggregate", payload := event.payload }

/-- The event of a frame. -/
def ActivityFrame.key (frame : ActivityFrame) : String :=
  String.ofList (frame.eventId.toList.map Char.toLower)

/-- A socket that has passed the handshake. -/
structure ActivitySocket where
  handshake : Handshake
  /-- `socket.data.userId`. -/
  userId : String
  connected : Bool
  /-- `handleConnection` has run. -/
  handled : Bool
  rooms : List String
  /-- The number of events told to users when the socket joined its room. -/
  joinedAt : ℕ
  /-- What was sent to the socket. -/
  frames : List ActivityFrame

/-- A socket whose handshake was accepted. -/
def ActivitySocket.accepted (handshake : Handshake) (userId : String) : ActivitySocket :=
  { handshake, userId, connected := true, handled := false, rooms := [], joinedAt := 0,
    frames := [] }

/-- The room of a user. -/
def room (userId : String) : String := "user:" ++ userId

/-- `handleConnection`, after some events were told to users. -/
def handleConnection (told : ℕ) (client : ActivitySocket) : ActivitySocket :=
  if client.userId = "" then { client with connected := false, handled := true, rooms := [] }
  else { client with
    handled := true, rooms := client.rooms ++ [room client.userId], joinedAt := told }

/-- The connection of the socket is lost, and it leaves its rooms. -/
def ActivitySocket.disconnect (client : ActivitySocket) : ActivitySocket :=
  { client with connected := false, rooms := [] }

/-- What a socket gets when a user is told about an event. -/
def ActivitySocket.receive (userId : String) (event : IntegrationEventEnvelope)
    (client : ActivitySocket) : ActivitySocket :=
  if client.connected ∧ room userId ∈ client.rooms then
    { client with frames := client.frames ++ [activityFrame event] }
  else client

/-- `emitToUser` of the gateway. -/
def emitToUser (userId : String) (event : IntegrationEventEnvelope)
    (sockets : List ActivitySocket) : List ActivitySocket :=
  sockets.map (ActivitySocket.receive userId event)

/-! ### The whole -/

/-- The way of the events, the auth service and the sockets. -/
structure LiveActivity where
  pipeline : Pipeline
  auth : Auth.World
  sockets : List ActivitySocket

namespace LiveActivity

/-- The events told to users, with the delivery that did it. -/
def told (l : LiveActivity) : List (ℕ × String × IntegrationEventEnvelope) :=
  l.pipeline.inbox.world.emitted

/-- Some users are registered in the ledger, and nothing has happened. -/
def initial (users : List Ledger.User) : LiveActivity :=
  { pipeline := .initial users, auth := .initial, sockets := [] }

/-- The state after a step on the way of the events. -/
def advance (l : LiveActivity) (pipeline : Pipeline) : LiveActivity :=
  { l with
    pipeline
    sockets := (pipeline.inbox.world.emitted.drop l.told.length).foldl
      (fun sockets e => emitToUser e.2.1 e.2.2 sockets) l.sockets }

/-- One step: of the services and the broker, of the auth service, or of a socket. -/
inductive Step (setting : Payments.Setting) (platform : Platform) (p : Auth.Platform)
    (secret : Option (List Char)) : LiveActivity → LiveActivity → Prop
  | pipeline {l pipeline} : Pipeline.Step setting platform l.pipeline pipeline →
      Step setting platform p secret l (l.advance pipeline)
  | auth {l} (d : Auth.Draws) (operation : Auth.Operation) :
      Step setting platform p secret l { l with auth := (operation.perform p d l.auth).1 }
  | handshake {l} (now : ℕ) {handshake userId} :
      authenticate secret l.auth now handshake = .ok userId →
      Step setting platform p secret l
        { l with sockets := l.sockets ++ [.accepted handshake userId] }
  | connection {l} {i : ℕ} {socket} : l.sockets[i]? = some socket → socket.handled = false →
      Step setting platform p secret l
        { l with sockets := l.sockets.set i (handleConnection l.told.length socket) }
  | disconnect {l} {i : ℕ} {socket} : l.sockets[i]? = some socket →
      Step setting platform p secret l { l with sockets := l.sockets.set i socket.disconnect }

/-- The states that can be reached. -/
def Reached (setting : Payments.Setting) (platform : Platform) (p : Auth.Platform)
    (secret : Option (List Char)) (users : List Ledger.User) : LiveActivity → Prop :=
  Relation.ReflTransGen (Step setting platform p secret) (initial users)

end LiveActivity

/-! ### What is told to users -/

/-- What a run of the inbox has told stays told. -/
lemma emitted_step {platform : Platform} {given : ConsumeMessage → Prop} {s s' : InboxSystem}
    (hstep : Transactions.Step (fedInbox platform given) s s') :
    s.world.emitted <+: s'.world.emitted := by
  rcases hstep.world_cases with he | ⟨i, body, r, ws, k, -, -, he⟩ | ⟨i, q, k, t, -, hissue⟩ |
    ⟨i, program, -, hstart⟩ | henv
  · rw [he]
  · rw [he]
    exact List.prefix_refl _
  · have he : s'.world = s.world.asked i q := hissue
    rw [he]
    cases q with
    | ack => exact List.prefix_refl _
    | nack => exact List.prefix_refl _
    | emitToUser => exact List.prefix_append _ _
  · obtain ⟨⟨-, he, -⟩, -⟩ := hstart
    rw [he]
  · exact henv.1.elim

lemma Pipeline.Step.emitted {setting : Payments.Setting} {platform : Platform} {p p' : Pipeline}
    (hstep : Pipeline.Step setting platform p p') :
    p.inbox.world.emitted <+: p'.inbox.world.emitted := by
  cases hstep with
  | inbox hstep => exact emitted_step hstep
  | _ => exact List.prefix_refl _

/-- Every event is told once. -/
lemma InboxInv.nodup_keys {platform : Platform} {w : InboxWorld} (hinv : InboxInv platform w) :
    (w.emitted.map fun e => e.2.2.key).Nodup := by
  refine (List.nodup_map_iff_inj_on hinv.once.of_map).mpr fun e he e' he' heq => ?_
  have hmarked := hinv.emitted e he
  rw [heq] at hmarked
  exact List.inj_on_of_nodup_map hinv.once he he' (hinv.marked_once hmarked (hinv.emitted e' he'))

/-! ### What a socket is sent -/

/-- The frames of the events of a user. -/
def framesOf (userId : String) (told : List (ℕ × String × IntegrationEventEnvelope)) :
    List ActivityFrame :=
  (told.filter fun e => e.2.1 = userId).map fun e => activityFrame e.2.2

lemma framesOf_append (userId : String) (told more : List (ℕ × String × IntegrationEventEnvelope)) :
    framesOf userId (told ++ more) = framesOf userId told ++ framesOf userId more := by
  unfold framesOf
  rw [List.filter_append, List.map_append]

lemma framesOf_sublist (userId : String)
    (told more : List (ℕ × String × IntegrationEventEnvelope)) :
    (framesOf userId told).Sublist (framesOf userId (told ++ more)) := by
  rw [framesOf_append]
  exact List.sublist_append_left _ _

/-- The rooms of different users are different. -/
lemma room_inj {userId userId' : String} (h : room userId = room userId') : userId = userId' := by
  have hlist := congrArg String.toList h
  unfold room at hlist
  rw [String.toList_append, String.toList_append] at hlist
  exact String.toList_inj.mp (List.append_cancel_left hlist)

/-- The socket is in no other room than that of its user, and has been sent what the user was told
since it joined the room. -/
structure ActivitySocket.Follows (told : List (ℕ × String × IntegrationEventEnvelope))
    (client : ActivitySocket) : Prop where
  rooms : ∀ r ∈ client.rooms, r = room client.userId
  waiting : client.handled = false → client.rooms = [] ∧ client.frames = []
  joined : client.joinedAt ≤ told.length
  current : client.connected = true → room client.userId ∈ client.rooms →
    client.frames = framesOf client.userId (told.drop client.joinedAt)
  sublist : client.frames.Sublist (framesOf client.userId told)

namespace ActivitySocket

variable {told : List (ℕ × String × IntegrationEventEnvelope)} {client : ActivitySocket}

lemma follows_accepted (handshake : Handshake) (userId : String) :
    (accepted handshake userId).Follows told where
  rooms _ h := absurd h List.not_mem_nil
  waiting _ := ⟨rfl, rfl⟩
  joined := Nat.zero_le _
  current _ h := absurd h List.not_mem_nil
  sublist := List.nil_sublist _

lemma Follows.handleConnection (h : client.Follows told) (hwaiting : client.handled = false) :
    (handleConnection told.length client).Follows told := by
  have hframes := (h.waiting hwaiting).2
  unfold Notifications.handleConnection
  split
  · exact ⟨fun _ hr => absurd hr List.not_mem_nil, fun _ => ⟨rfl, hframes⟩, h.joined,
      fun _ hr => absurd hr List.not_mem_nil, h.sublist⟩
  · refine ⟨fun r hr => ?_, fun hhandled => absurd hhandled (by simp), le_refl _, fun _ _ => ?_,
      h.sublist⟩
    · rcases List.mem_append.mp hr with hr | hr
      · exact h.rooms r hr
      · exact List.mem_singleton.mp hr
    · change client.frames = framesOf client.userId (told.drop told.length)
      rw [hframes, List.drop_length]
      rfl

lemma Follows.disconnect (h : client.Follows told) : client.disconnect.Follows told where
  rooms _ hr := absurd hr List.not_mem_nil
  waiting hwaiting := ⟨rfl, (h.waiting hwaiting).2⟩
  joined := h.joined
  current _ hr := absurd hr List.not_mem_nil
  sublist := h.sublist

/-- A user is told about one more event. -/
lemma Follows.receive (h : client.Follows told) (i : ℕ) (userId : String)
    (event : IntegrationEventEnvelope) :
    (client.receive userId event).Follows (told ++ [(i, userId, event)]) := by
  have hdrop : (told ++ [(i, userId, event)]).drop client.joinedAt =
      told.drop client.joinedAt ++ [(i, userId, event)] := List.drop_append_of_le_length h.joined
  have hjoined : client.joinedAt ≤ (told ++ [(i, userId, event)]).length := by
    rw [List.length_append]
    exact Nat.le_add_right_of_le h.joined
  unfold ActivitySocket.receive
  split
  · next hin =>
    obtain ⟨hconnected, hroom⟩ := hin
    obtain rfl : userId = client.userId := room_inj (h.rooms _ hroom)
    have hframe : framesOf client.userId [(i, client.userId, event)] = [activityFrame event] := by
      simp [framesOf]
    refine ⟨h.rooms, fun hwaiting => ?_, hjoined, fun _ _ => ?_, ?_⟩
    · rw [(h.waiting hwaiting).1] at hroom
      exact absurd hroom List.not_mem_nil
    · change client.frames ++ [activityFrame event] = framesOf client.userId _
      rw [hdrop, framesOf_append, hframe, ← h.current hconnected hroom]
    · change (client.frames ++ [activityFrame event]).Sublist (framesOf client.userId _)
      rw [framesOf_append, hframe]
      exact h.sublist.append (List.Sublist.refl _)
  · next hout =>
    refine ⟨h.rooms, h.waiting, hjoined, fun hconnected hroom => ?_,
      h.sublist.trans (framesOf_sublist _ _ _)⟩
    have hother : userId ≠ client.userId := by
      rintro rfl
      exact hout ⟨hconnected, hroom⟩
    have hnone : framesOf client.userId [(i, userId, event)] = [] := by
      simp [framesOf, hother]
    rw [hdrop, framesOf_append, hnone, List.append_nil]
    exact h.current hconnected hroom

end ActivitySocket

/-! ### Whose token a socket has presented -/

/-- The token is in the headers. -/
def Handshake.Presents (handshake : Handshake) (token : List Char) : Prop :=
  handshake.authorization.bind bearerToken = some token ∨
    readCookie handshake.cookie "accessToken".toList = .ok (some token)

/-- The auth service has signed the token for the user. -/
def Handshake.IssuedTo (handshake : Handshake) (secret : Option (List Char)) (auth : Auth.World)
    (userId : String) : Prop :=
  ∃ s ∈ auth.signed, s.sub = userId ∧ secret = some s.secret ∧ handshake.Presents s.text

lemma issuedTo_of_authenticate {secret : Option (List Char)} {auth : Auth.World} {now : ℕ}
    {handshake : Handshake} {userId : String}
    (h : authenticate secret auth now handshake = .ok userId) :
    handshake.IssuedTo secret auth userId := by
  unfold authenticate at h
  split at h
  · cases h
  · cases h
  · next secret _ =>
    obtain ⟨cookieToken, hcookie, h⟩ := except_bind_ok.mp h
    split at h
    · cases h
    · cases h
    · next token _ htoken =>
      split at h
      · cases h
      · next sub hverify =>
        obtain rfl := Except.ok.inj h
        obtain ⟨s, hfound, rfl⟩ := Option.map_eq_some_iff.mp hverify
        have hmatch := List.find?_some hfound
        simp only [decide_eq_true_eq] at hmatch
        obtain ⟨rfl, rfl, -⟩ := hmatch
        refine ⟨s, List.mem_of_find?_eq_some hfound, rfl, rfl, ?_⟩
        rcases Option.or_eq_some_iff.mp htoken with hbearer | ⟨-, hcookieToken⟩
        · exact .inl hbearer
        · rw [hcookieToken] at hcookie
          exact .inr hcookie

/-! ### Every reachable state -/

namespace LiveActivity

/-- The invariant of the sockets. -/
structure Sound (p : Auth.Platform) (secret : Option (List Char)) (l : LiveActivity) : Prop where
  auth : l.auth.Inv p
  sockets : ∀ client ∈ l.sockets, client.Follows l.told ∧
    client.handshake.IssuedTo secret l.auth client.userId

variable {setting : Payments.Setting} {platform : Platform} {p : Auth.Platform}
variable {secret : Option (List Char)} {users : List Ledger.User} {l l' : LiveActivity}

lemma issuedTo_mono {auth auth' : Auth.World} {handshake : Handshake} {userId : String}
    (h : handshake.IssuedTo secret auth userId) (hsigned : auth.signed ⊆ auth'.signed) :
    handshake.IssuedTo secret auth' userId := by
  obtain ⟨s, hs, hrest⟩ := h
  exact ⟨s, hsigned hs, hrest⟩

/-- Users are told about some more events. -/
lemma sockets_foldl {auth : Auth.World} {sockets : List ActivitySocket}
    {told more : List (ℕ × String × IntegrationEventEnvelope)}
    (h : ∀ client ∈ sockets,
      client.Follows told ∧ client.handshake.IssuedTo secret auth client.userId) :
    ∀ client ∈ more.foldl (fun sockets e => emitToUser e.2.1 e.2.2 sockets) sockets,
      client.Follows (told ++ more) ∧
        client.handshake.IssuedTo secret auth client.userId := by
  induction more generalizing told sockets with
  | nil =>
    rw [List.append_nil]
    exact h
  | cons e more ih =>
    rw [List.append_cons, List.foldl_cons]
    refine ih fun client hclient => ?_
    obtain ⟨before, hbefore, rfl⟩ := List.mem_map.mp hclient
    obtain ⟨hfollows, hissued⟩ := h before hbefore
    refine ⟨hfollows.receive e.1 e.2.1 e.2.2, ?_⟩
    unfold ActivitySocket.receive
    split
    · exact hissued
    · exact hissued

lemma Sound.step (h : l.Sound p secret) (hstep : Step setting platform p secret l l') :
    l'.Sound p secret := by
  cases hstep with
  | @pipeline pipeline hstep =>
    refine ⟨h.auth, ?_⟩
    obtain ⟨more, hmore⟩ := hstep.emitted
    have hnew : pipeline.inbox.world.emitted.drop l.told.length = more := by
      rw [← hmore]
      exact List.drop_left
    have htold : (l.advance pipeline).told = l.told ++ more := hmore.symm
    rw [htold, advance, hnew]
    exact sockets_foldl h.sockets
  | auth d operation =>
    refine ⟨h.auth.perform operation, fun client hclient => ?_⟩
    obtain ⟨hfollows, hissued⟩ := h.sockets client hclient
    exact ⟨hfollows, issuedTo_mono hissued (Auth.signed_perform operation)⟩
  | handshake now hauthenticate =>
    refine ⟨h.auth, fun client hclient => ?_⟩
    rcases List.mem_append.mp hclient with hold | hnew
    · exact h.sockets client hold
    · obtain rfl := List.mem_singleton.mp hnew
      exact ⟨ActivitySocket.follows_accepted _ _, issuedTo_of_authenticate hauthenticate⟩
  | @connection i socket hsocket hwaiting =>
    refine ⟨h.auth, fun client hclient => ?_⟩
    rcases List.mem_or_eq_of_mem_set hclient with hold | rfl
    · exact h.sockets client hold
    · obtain ⟨hfollows, hissued⟩ := h.sockets socket (List.mem_of_getElem? hsocket)
      refine ⟨hfollows.handleConnection hwaiting, ?_⟩
      unfold handleConnection
      split
      · exact hissued
      · exact hissued
  | @disconnect i socket hsocket =>
    refine ⟨h.auth, fun client hclient => ?_⟩
    rcases List.mem_or_eq_of_mem_set hclient with hold | rfl
    · exact h.sockets client hold
    · obtain ⟨hfollows, hissued⟩ := h.sockets socket (List.mem_of_getElem? hsocket)
      exact ⟨hfollows.disconnect, hissued⟩

lemma Reached.sound (hl : Reached setting platform p secret users l) : l.Sound p secret := by
  induction hl with
  | refl =>
    exact ⟨Auth.run_inv p [], fun _ hclient => absurd hclient List.not_mem_nil⟩
  | tail _ hstep ih => exact ih.step hstep

/-- The way of the events has made a run of its own. -/
lemma Reached.pipeline (hl : Reached setting platform p secret users l) :
    Pipeline.Reached setting platform users l.pipeline := by
  induction hl with
  | refl => exact .refl
  | tail _ hstep ih =>
    cases hstep with
    | pipeline hstep => exact ih.tail hstep
    | _ => exact ih

end LiveActivity

/-- In every state, whatever order requests for tokens, handshakes, connections, lost connections and
deliveries come in: the auth service has signed a token for the user of a socket, who is registered,
and the socket has presented it.  What the socket was sent are events that a service has committed to
its outbox about this user, and their rows are in the feed; no event was sent twice, and while the
socket is in the room of its user it has been sent all that the user was told since it joined. -/
theorem sockets_show_own_activity (setting : Payments.Setting) {platform : Platform}
    (hplatform : platform.Standard) (p : Auth.Platform) (secret : Option (List Char))
    (users : List Ledger.User) {l : LiveActivity}
    (hl : LiveActivity.Reached setting platform p secret users l) :
    ∀ client ∈ l.sockets,
      (client.handshake.IssuedTo secret l.auth client.userId ∧
        ∃ user, l.auth.users.findById client.userId = some user) ∧
      (∀ frame ∈ client.frames, ∃ event routingKey,
        l.pipeline.Produced setting.config.isoString event routingKey client.userId ∧
          frame = activityFrame (received event) ∧
          l.pipeline.inbox.world.db.HasItem (received event).key) ∧
      (client.frames.map ActivityFrame.key).Nodup ∧
      (client.connected = true → room client.userId ∈ client.rooms →
        client.frames = framesOf client.userId (l.told.drop client.joinedAt)) := by
  have hparts := Pipeline.reached_parts hl.pipeline
  have hfed := fedInbox_fed hparts.inbox
  have hinv : InboxInv platform l.pipeline.inbox.world := inbox_inv hparts.inbox.of_restrict
  have hsound := hl.sound
  intro client hclient
  obtain ⟨hfollows, hissued⟩ := hsound.sockets client hclient
  refine ⟨⟨hissued, ?_⟩, fun frame hframe => ?_, ?_, hfollows.current⟩
  · obtain ⟨s, hs, hsub, -⟩ := hissued
    obtain ⟨user, -, -, hfound, -⟩ := hsound.auth.hashes s hs
    exact ⟨user, hsub ▸ hfound⟩
  · obtain ⟨e, he, rfl⟩ := List.mem_map.mp (hfollows.sublist.subset hframe)
    obtain ⟨hmem, htest⟩ := List.mem_filter.mp he
    have huserId : e.2.1 = client.userId := of_decide_eq_true htest
    obtain ⟨hdecoded, huser⟩ := hfed.emitted e hmem
    obtain ⟨event, routingKey, userId, hproduced, hevent, huser'⟩ :=
      Pipeline.decoded_produced hplatform hparts hdecoded
    obtain rfl := Option.some.inj (huser'.symm.trans huser)
    refine ⟨event, routingKey, huserId ▸ hproduced, by rw [hevent], ?_⟩
    rw [← hevent]
    exact hinv.marked_item (hinv.emitted e hmem)
  · -- the frames of the socket are some of the events told, each of which was told once
    have hkeys : ((framesOf client.userId l.told).map ActivityFrame.key).Nodup := by
      unfold framesOf
      rw [List.map_map]
      exact hinv.nodup_keys.sublist (List.filter_sublist.map _)
    exact hkeys.sublist (hfollows.sublist.map _)

/-! ### Ann is shown that her wallet was opened -/

/-- The socket before anything was sent to it. -/
def ActivitySocket.silent (client : ActivitySocket) : ActivitySocket := { client with frames := [] }

namespace LiveActivity

variable {setting : Payments.Setting} {platform : Platform} {p : Auth.Platform}
variable {secret : Option (List Char)} {users : List Ledger.User} {l : LiveActivity}

lemma silent_foldl (sockets : List ActivitySocket)
    (more : List (ℕ × String × IntegrationEventEnvelope)) :
    (more.foldl (fun sockets e => emitToUser e.2.1 e.2.2 sockets) sockets).map
      ActivitySocket.silent = sockets.map ActivitySocket.silent := by
  induction more generalizing sockets with
  | nil => rfl
  | cons e more ih =>
    have hone : (emitToUser e.2.1 e.2.2 sockets).map ActivitySocket.silent =
        sockets.map ActivitySocket.silent := by
      rw [emitToUser, List.map_map]
      refine List.map_congr_left fun client _ => ?_
      simp only [Function.comp_apply, ActivitySocket.receive]
      split <;> rfl
    rw [List.foldl_cons, ih, hone]

/-- A run on the way of the events is one of the whole, in which the sockets are only sent events. -/
lemma Reached.advances (hl : Reached setting platform p secret users l) {pipeline : Pipeline}
    (hrun : Relation.ReflTransGen (Pipeline.Step setting platform) l.pipeline pipeline) :
    ∃ l', Reached setting platform p secret users l' ∧ l'.pipeline = pipeline ∧
      l'.sockets.map ActivitySocket.silent = l.sockets.map ActivitySocket.silent := by
  induction hrun with
  | refl => exact ⟨l, hl, rfl, rfl⟩
  | @tail _ next _ hstep ih =>
    obtain ⟨l', hl', rfl, hsilent⟩ := ih
    refine ⟨l'.advance next, hl'.tail (.pipeline hstep), rfl, ?_⟩
    rw [← hsilent]
    exact silent_foldl _ _

end LiveActivity

/-- Ann has an account. -/
def annsAccount : List Ledger.User := [⟨Auth.annsId, "ann@example.com"⟩]

/-- Ann's access token in the header `Authorization`. -/
def annsHandshake : Handshake :=
  { authorization := some ("Bearer ".toList ++
      (Auth.plain.sign "access".toList Auth.annsRow 0 900).text),
    cookie := none }

/-- Ann has registered and has connected a socket. -/
lemma reached_annsSocket : LiveActivity.Reached Payments.scripted isoPlatform Auth.plain
    (some "access".toList) annsAccount
    { pipeline := .initial annsAccount
      auth := Auth.run Auth.plain [(Auth.drawsAt 0, .register Auth.ann)]
      sockets := [handleConnection 0 (.accepted annsHandshake Auth.annsId)] } := by
  have hauthenticate : authenticate (some "access".toList)
      (Auth.run Auth.plain [(Auth.drawsAt 0, .register Auth.ann)]) 5 annsHandshake =
        .ok Auth.annsId := by decide +kernel
  refine .tail (.tail (.tail .refl (.auth (Auth.drawsAt 0) (.register Auth.ann)))
    (.handshake 5 hauthenticate)) ?_
  exact .connection (i := 0) rfl rfl

/-- Ann's socket is sent the event of the wallet that she opens. -/
theorem sockets_show_own_activity_ann : ∃ l, LiveActivity.Reached Payments.scripted isoPlatform
    Auth.plain (some "access".toList) annsAccount l ∧
      ∃ client ∈ l.sockets, client.userId = Auth.annsId ∧ ∃ frame, client.frames = [frame] ∧
        ∃ event routingKey,
          l.pipeline.Produced Payments.scripted.config.isoString event routingKey client.userId ∧
            frame = activityFrame (received event) := by
  obtain ⟨s, hs, hopened⟩ := walletRun.exists_reaches annsAccount
    [.owner 0 (.getOrCreateForUser Auth.annsId "USD")]
    (fun s => s.world.ledger.world.db.outbox.any fun message =>
      Ledger.isUuid message.event.eventId ∧ message.event.occurredAt = 0 ∧
        userIdFor (received message.event) = some Auth.annsId) (by decide +kernel)
  obtain ⟨message, hmessage, hopened⟩ := List.any_eq_true.mp hopened
  obtain ⟨hid, htime, huser⟩ := of_decide_eq_true hopened
  obtain ⟨p, hp, hinbox, hgiven, hread⟩ := Pipeline.exists_given hs hmessage hid htime
  obtain ⟨shown, hshown, hemitted⟩ := fed_tells hgiven hread huser (by decide)
  obtain ⟨l, hl, hpipeline, hsilent⟩ := reached_annsSocket.advances (hp.inbox (hinbox ▸ hshown))
  -- only the frames of the socket have changed
  obtain ⟨client, hsockets, hclient⟩ := List.map_eq_singleton_iff.mp hsilent
  have hmem : client ∈ l.sockets := hsockets ▸ List.mem_singleton_self _
  have huserId : client.userId = Auth.annsId := congrArg ActivitySocket.userId hclient
  have hconnected : client.connected = true := congrArg ActivitySocket.connected hclient
  have hrooms : client.rooms = [room Auth.annsId] := congrArg ActivitySocket.rooms hclient
  have hjoined : client.joinedAt = 0 := congrArg ActivitySocket.joinedAt hclient
  obtain ⟨-, hframes, -, hcurrent⟩ := sockets_show_own_activity Payments.scripted
    isoPlatform_standard Auth.plain _ annsAccount hl client hmem
  have hroom : room client.userId ∈ client.rooms := by
    rw [huserId, hrooms]
    exact List.mem_singleton_self _
  have htold : l.told = [(0, Auth.annsId, received message.event)] := by
    rw [LiveActivity.told, hpipeline]
    exact hemitted
  have hone : client.frames = [activityFrame (received message.event)] := by
    rw [hcurrent hconnected hroom, hjoined, htold, huserId]
    simp [framesOf]
  obtain ⟨event, routingKey, hproduced, hframe, -⟩ :=
    hframes (activityFrame (received message.event)) (hone ▸ List.mem_singleton_self _)
  exact ⟨l, hl, client, hmem, huserId, _, hone, event, routingKey, hproduced, hframe⟩

end Notifications

end PeerLedger
