import VoceChat.Foundations.Run
import VoceChat.Message.SendLaws

/-!
# Senders and event streams (`src/api/user.rs`, `src/api/message.rs`)

`send_message` holds the cache's read lock from its checks to its end; `events` holds the write lock
while it subscribes to the broadcast channel and takes the backlog from the message database. So
`EventSystem` is a system of senders and sessions over one cache and one message database, where the
steps of a sender interleave with those of the other senders, and with those of a session only
outside its subscription.

A step does one thing at a time: a sender takes its id, writes its batch, updates the merged copy
and broadcasts in four steps, and a session subscribes and fetches in two. Sends that fail before
they take an id change nothing and are not modelled; the others go all the way.

A session's broadcast channel never lags, so its queue is a list. What the session has been sent,
the backlog first, is `tx`; the client has read the first `read` of it.
-/

namespace VoceChat

open Guards MsgDb

structure ChatMessage where
  mid : ℤ
  payload : ChatMessagePayload

/-- `BroadcastEvent::Chat`. -/
structure ChatEvent where
  targets : List Int64
  message : ChatMessage

/-- `MAX_NEWEST_MESSAGES`. -/
def maxNewestMessages : ℕ := 5000

/-- A record of the index as a message, if its data parses. -/
def ChatMessage.decode (e : ℤ × Blob Stored) : Option ChatMessage :=
  (Stored.payload e.2).map (ChatMessage.mk e.1)

/-- The message is a DM, or its group still exists. -/
def ChatMessage.shown (cache : Cache) (msg : ChatMessage) : Bool :=
  match msg.payload.target with
  | .user _ => true
  | .group gid => (cache.group gid).isSome

/-- `fetch_newest_messages`. -/
def fetchNewestMessages (cache : Cache) (db : MsgDb Stored) (uid : Int64)
    (afterMid : Option ℤ) : List ChatMessage :=
  ((db.fetchUserMessagesAfter uid afterMid maxNewestMessages).filterMap ChatMessage.decode).filter
    (ChatMessage.shown cache)

/-- How far a send is. It holds the read lock all the time. -/
inductive SendPhase where
  | locked
  | numbered (mid : ℤ)
  | stored (mid : ℤ)
  | merged (mid : ℤ)
  | broadcast
  deriving DecidableEq, Repr

structure Sending where
  prepared : Prepared
  phase : SendPhase

/-- The id of a send that has not broadcast its message yet. -/
def Sending.mid (x : Sending) : Option ℤ :=
  match x.phase with
  | .locked | .broadcast => none
  | .numbered mid | .stored mid | .merged mid => some mid

inductive SessionPhase where
  /-- The write lock is held. -/
  | locked
  /-- The same, and the receiver exists. -/
  | subscribed
  | live
  | closed
  deriving DecidableEq, Repr

structure EventSession where
  uid : Int64
  afterMid : Option ℤ
  phase : SessionPhase
  queue : List ChatEvent
  pushStartId : Option ℤ
  tx : List ChatMessage
  read : ℕ

/-- The session holds the cache's write lock. -/
def EventSession.writes (x : EventSession) : Bool := x.phase = .locked || x.phase = .subscribed

/-- The `Chat` branch of `events_loop`. -/
def EventSession.recv (x : EventSession) (event : ChatEvent) : EventSession :=
  if !event.targets.contains x.uid then x
  else match x.pushStartId with
    | some id =>
      if event.message.mid ≤ id then x
      else { x with pushStartId := none, tx := x.tx ++ [event.message] }
    | none => { x with tx := x.tx ++ [event.message] }

/-- Receive everything that is in the queue. -/
def EventSession.recvAll (x : EventSession) : EventSession :=
  x.queue.foldl EventSession.recv { x with queue := [] }

/-- The end of `events`: the backlog is sent and the loop starts after it. -/
def EventSession.goLive (x : EventSession) (newestMessages : List ChatMessage) : EventSession :=
  { x with
    phase := .live
    pushStartId := newestMessages.getLast?.map ChatMessage.mid
    tx := newestMessages }

/-- A broadcast reaches the receivers that exist. -/
def EventSession.push (event : ChatEvent) (x : EventSession) : EventSession :=
  match x.phase with
  | .subscribed | .live => { x with queue := x.queue ++ [event] }
  | .locked | .closed => x

structure EventSystem where
  cache : Cache
  messages : MsgDb Stored
  senders : List Sending
  sessions : List EventSession

inductive EventAction where
  /-- The checks of `send_message`, with the read lock; those before it let the message pass. -/
  | lockRead (payload : ChatMessagePayload) (pendingDmTarget : Option Int64)
  | takeId (i : ℕ)
  | applyBatch (i : ℕ)
  | storeMerged (i : ℕ)
  | broadcast (i : ℕ)
  | unlockRead (i : ℕ)
  /-- `events`, with the write lock. -/
  | lockWrite (uid : Int64) (afterMid : Option ℤ)
  | subscribe (k : ℕ)
  /-- The backlog is fetched and the session goes live. -/
  | fetch (k : ℕ)
  | recv (k : ℕ)
  | read (k : ℕ)
  | close (k : ℕ)
  /-- Anything else that writes to the cache. -/
  | setCache (cache : Cache)

namespace EventSystem

def init (cache : Cache) : EventSystem := ⟨cache, created, [], []⟩

/-- No session holds the write lock. -/
def unwritten (s : EventSystem) : Bool := s.sessions.all fun x ↦ !x.writes

def setSender (s : EventSystem) (i : ℕ) (x : Sending) (phase : SendPhase) : EventSystem :=
  { s with senders := s.senders.set i { x with phase } }

def setSession (s : EventSystem) (k : ℕ) (x : EventSession) : EventSystem :=
  { s with sessions := s.sessions.set k x }

/-- `event_sender.send`. -/
def pushAll (s : EventSystem) (event : ChatEvent) : EventSystem :=
  { s with sessions := s.sessions.map (EventSession.push event) }

/-- A step of a sender. -/
def stepSender (s : EventSystem) (i : ℕ) (f : Sending → Option EventSystem) : Option EventSystem :=
  s.senders[i]?.bind f

/-- A step of a session in the given phase. -/
def stepSession (s : EventSystem) (k : ℕ) (phase : SessionPhase)
    (f : EventSession → Option EventSession) : Option EventSystem :=
  (s.sessions[k]?.filter fun x ↦ x.phase = phase).bind fun x ↦ (f x).map (s.setSession k)

def step (s : EventSystem) : EventAction → Option EventSystem
  | .lockRead payload pendingDmTarget =>
    if s.unwritten then
      match resolve s.cache payload pendingDmTarget with
      | .error _ => some s
      | .ok prepared => some { s with senders := s.senders ++ [⟨prepared, .locked⟩] }
    else none
  | .takeId i => s.stepSender i fun x ↦
      match x.phase, s.messages.generateMsgId fun _ ↦ false with
      | .locked, (.ok mid, messages) => some ({ s with messages }.setSender i x (.numbered mid))
      | _, _ => none
  | .applyBatch i => s.stepSender i fun x ↦
      match x.phase with
      | .numbered mid =>
        let messages := s.messages.applyBatch (x.prepared.batch mid)
        some ({ s with messages }.setSender i x (.stored mid))
      | _ => none
  | .storeMerged i => s.stepSender i fun x ↦
      match x.phase with
      | .stored mid =>
        let messages := (storeMerged (fun _ ↦ false) s.messages x.prepared.payload mid).2
        some ({ s with messages }.setSender i x (.merged mid))
      | _ => none
  | .broadcast i => s.stepSender i fun x ↦
      match x.phase with
      | .merged mid =>
        some ((s.pushAll ⟨x.prepared.target.targets, ⟨mid, x.prepared.payload⟩⟩).setSender i x
          .broadcast)
      | _ => none
  | .unlockRead i => s.stepSender i fun x ↦
      if x.phase = .broadcast then some { s with senders := s.senders.eraseIdx i } else none
  | .lockWrite uid afterMid =>
    if s.senders.isEmpty && s.unwritten then
      some { s with sessions := s.sessions ++ [⟨uid, afterMid, .locked, [], none, [], 0⟩] }
    else none
  | .subscribe k => s.stepSession k .locked fun x ↦
      if (s.cache.user x.uid).isSome then some { x with phase := .subscribed } else none
  | .fetch k => s.stepSession k .subscribed fun x ↦
      some (x.goLive (fetchNewestMessages s.cache s.messages x.uid x.afterMid))
  | .recv k => s.stepSession k .live fun x ↦
      match x.queue with
      | event :: queue => some ({ x with queue }.recv event)
      | [] => none
  | .read k => s.stepSession k .live fun x ↦
      if x.read < x.tx.length then some { x with read := x.read + 1 } else none
  | .close k => s.sessions[k]?.map fun x ↦ s.setSession k { x with phase := .closed, queue := [] }
  | .setCache cache => if s.senders.isEmpty && s.unwritten then some { s with cache } else none

end EventSystem

end VoceChat
