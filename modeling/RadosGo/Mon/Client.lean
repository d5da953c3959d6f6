import RadosGo.Mgr.Command
import RadosGo.Mon.BatchSteps

namespace RadosGo.Mon

open Maps

/-- A monitor map without its monitors. -/
structure MonMap where
  fsid : FSID
  epoch : Nat

structure SubscribeAck where
  intervalSeconds : Nat
  fsid : FSID

/-- The configuration of a client. The decoders of the smaller messages are part of it. -/
structure ClientConfig where
  mapLimits : Maps.Limits
  messageLimits : MessageLimits
  subscribePeriod : Nat
  decodeSubscribeAck : Message → Except GoError SubscribeAck
  decodeMonMap : Message → Except GoError MonMap
  decodeMgrMap : Message → Except GoError MgrMap

/-- What a message meets: whether the new monitors have the active one among them, whether there is a session, how
requests to it end, and the orders in which incrementals are applied. -/
structure Circumstances where
  activePresent : Bool := true
  session : Bool := true
  encodeErr : Option GoError := none
  requestErr : Option GoError := none
  subscribeErr : Option GoError := none
  orders : Nat → Ranges

/-- The published maps are lists, the current one first. `osdMapChanges` counts how often the waiters for an OSD map
were woken. -/
structure Client where
  pinnedFSID : Option FSID := none
  monMaps : List MonMap := []
  mgrMaps : List MgrMap := []
  osdMaps : List OSDMap := []
  osdGenerations : Int → UInt64 := fun _ => 0
  osdMapChanges : Nat := 0
  refreshPending : Bool := false
  ready : Bool := false

def messageMonMap : Nat := 4
def messageMonSubscribeAck : Nat := 16
def messageMgrMap : Nat := 0x704

namespace Client

variable (s : Client)

def osdMap : Option OSDMap := s.osdMaps.head?

def pinFSID (fsid : FSID) : Except GoError Client :=
  match s.pinnedFSID with
  | none => .ok { s with pinnedFSID := some fsid }
  | some pinned => if pinned ≠ fsid then .error Sentinel.foreignCluster else .ok s

/-- The end of `applyBatch`: a new map is published. -/
def publish (result : BatchState) : Client :=
  match result.current, result.applied with
  | some current, _ :: _ => { s with
      osdGenerations := fun osd => if osd ∈ result.invalidated then s.osdGenerations osd + 1 else s.osdGenerations osd
      osdMaps := current :: s.osdMaps
      osdMapChanges := s.osdMapChanges + 1
      ready := s.ready || !s.monMaps.isEmpty }
  | _, _ => s

def requestFullMap (circumstances : Circumstances) : Client × Option GoError :=
  if s.refreshPending then (s, none)
  else if !circumstances.session then (s, some (.plain "monitor client closed"))
  else
    match circumstances.encodeErr, circumstances.requestErr with
    | some err, _ => ({ s with refreshPending := true }, some err)
    | none, some err => (s, some err)
    | none, none => ({ s with refreshPending := true }, none)

def handleSubscribeAck (config : ClientConfig) (message : Message) : Client × Except Fault Nat :=
  match config.decodeSubscribeAck message with
  | .error err => (s, wrapped "decode subscribe acknowledgment" (.error err))
  | .ok ack =>
    match s.pinFSID ack.fsid with
    | .error err => (s, .error (.err err))
    | .ok s =>
      (s, .ok (if ack.intervalSeconds = 0 then config.subscribePeriod else ack.intervalSeconds * 10 ^ 9 / 2))

def handleMonMap (config : ClientConfig) (message : Message) (circumstances : Circumstances) :
    Client × Except Fault Nat :=
  match config.decodeMonMap message with
  | .error err => (s, wrapped "decode monitor map" (.error err))
  | .ok monMap =>
    match s.pinFSID monMap.fsid with
    | .error err => (s, .error (.err err))
    | .ok s =>
      if s.monMaps.head?.all fun current => decide (current.epoch < monMap.epoch) then
        let s := { s with monMaps := monMap :: s.monMaps, ready := s.ready || !s.osdMaps.isEmpty }
        if !circumstances.activePresent then (s, .error (.err Sentinel.monitorRemoved)) else (s, .ok 0)
      else (s, .ok 0)

def handleMgrMap (config : ClientConfig) (message : Message) : Client × Except Fault Nat :=
  match config.decodeMgrMap message with
  | .error err => (s, wrapped "decode manager map" (.error err))
  | .ok mgrMap =>
    if s.mgrMaps.head?.all fun current => decide (current.epoch < mgrMap.epoch) then
      ({ s with mgrMaps := mgrMap :: s.mgrMaps }, .ok 0)
    else (s, .ok 0)

/-- After an error of `applyBatch`. -/
def batchFailed (circumstances : Circumstances) (fault : Fault) : Client × Except Fault Nat :=
  match fault with
  | .panicked message => (s, .error (.panicked message))
  | .err err =>
    if err.Is .mapGap then
      match s.requestFullMap circumstances with
      | (s, none) => (s, .error (.err err))
      | (s, some refreshErr) => (s, .error (.err (.join (err.text ++ "\n" ++ refreshErr.text) err refreshErr)))
    else (s, .error (.err err))

/-- After a batch was applied. -/
def finishRefresh (circumstances : Circumstances) : Client × Except Fault Nat :=
  if s.refreshPending then
    match circumstances.subscribeErr with
    | none => ({ s with refreshPending := false }, .ok 0)
    | some err => ({ s with refreshPending := false }, .error (.err err))
  else (s, .ok 0)

def handleOSDMap (config : ClientConfig) (message : Message) (circumstances : Circumstances) :
    Client × Except Fault Nat :=
  match decodeOSDMapBatch message config.messageLimits with
  | .error err => (s, wrapped "decode OSD map batch" (.error err))
  | .ok batch =>
    match s.pinFSID batch.fsid with
    | .error err => (s, .error (.err err))
    | .ok s =>
      match applyBatch config.mapLimits batch circumstances.orders s.osdMap with
      | .error fault => s.batchFailed circumstances fault
      | .ok result => (s.publish result).finishRefresh circumstances

def handleMessage (config : ClientConfig) (message : Message) (circumstances : Circumstances) :
    Client × Except Fault Nat :=
  if message.header.type = messageMonSubscribeAck then s.handleSubscribeAck config message
  else if message.header.type = messageMonMap then s.handleMonMap config message circumstances
  else if message.header.type = messageMgrMap then s.handleMgrMap config message
  else if message.header.type = messageOSDMap then s.handleOSDMap config message circumstances
  else (s, .ok 0)

/-- The messages of a client, one after another. -/
def run (config : ClientConfig) (messages : List (Message × Circumstances)) : Client :=
  messages.foldl (fun s message => (s.handleMessage config message.1 message.2).1) s

end Client

end RadosGo.Mon
