import RadosGo.Mon.Client

namespace RadosGo.Mon

open Maps

namespace Client

variable {s t : Client} {config : ClientConfig} {message : Message} {circumstances : Circumstances} {fsid : FSID}

/-- The cluster which a message names, if it can be decoded and is of a kind that names one. -/
def messageFSID (config : ClientConfig) (message : Message) : Option FSID :=
  if message.header.type = messageMonSubscribeAck
  then (config.decodeSubscribeAck message).toOption.map SubscribeAck.fsid
  else if message.header.type = messageMonMap then (config.decodeMonMap message).toOption.map MonMap.fsid
  else if message.header.type = messageMgrMap then none
  else if message.header.type = messageOSDMap then
    (decodeOSDMapBatch message config.messageLimits).toOption.map OSDMapBatch.fsid
  else none

/-- What a message does: nothing but pin a cluster and change the pending refresh, or publish one map. -/
inductive Handled (config : ClientConfig) (message : Message) (circumstances : Circumstances) (s : Client) :
    Client → Prop
  | nothing (pinnedFSID : Option FSID) (refreshPending : Bool)
      (pins : s.pinnedFSID.or (messageFSID config message) = pinnedFSID) :
    Handled config message circumstances s { s with pinnedFSID, refreshPending }
  | monMap (monMap : MonMap) (ready : Bool) (pins : s.pinnedFSID.or (messageFSID config message) = some monMap.fsid)
      (newer : ∀ current ∈ s.monMaps.head?, current.epoch < monMap.epoch) :
    Handled config message circumstances s
      { s with pinnedFSID := some monMap.fsid, monMaps := monMap :: s.monMaps, ready }
  | mgrMap (mgrMap : MgrMap) (pins : messageFSID config message = none)
      (newer : ∀ current ∈ s.mgrMaps.head?, current.epoch < mgrMap.epoch) :
    Handled config message circumstances s { s with mgrMaps := mgrMap :: s.mgrMaps }
  | osdMap (batch : OSDMapBatch) (result : BatchState) (refreshPending : Bool)
      (decoded : decodeOSDMapBatch message config.messageLimits = .ok batch)
      (pins : s.pinnedFSID.or (messageFSID config message) = some batch.fsid)
      (applied : applyBatch config.mapLimits batch circumstances.orders s.osdMap = .ok result) :
    Handled config message circumstances s
      { ({ s with pinnedFSID := some batch.fsid }.publish result) with refreshPending }

theorem pinFSID_ok (pinned : s.pinFSID fsid = .ok t) : t = { s with pinnedFSID := some fsid } ∧
    s.pinnedFSID.or (some fsid) = some fsid := by
  unfold pinFSID at pinned
  split at pinned
  · next unpinned =>
    cases pinned
    exact ⟨rfl, by rw [unpinned]; rfl⟩
  · next other isPinned =>
    split at pinned
    · cases pinned
    · next same =>
      cases pinned
      rw [not_not] at same
      subst same
      exact ⟨by rw [← isPinned], by rw [isPinned]; rfl⟩

theorem pinFSID_error {err : GoError} (refused : s.pinFSID fsid = .error err) :
    s.pinnedFSID.or (some fsid) = s.pinnedFSID := by
  unfold pinFSID at refused
  split at refused
  · cases refused
  · next isPinned => rw [isPinned]; rfl

/-- The parts of `handleMessage` after `applyBatch` only touch the pending refresh. -/
theorem batchFailed_same (s : Client) (circumstances : Circumstances) (fault : Fault) :
    ∃ refreshPending, (s.batchFailed circumstances fault).1 = { s with refreshPending } := by
  have requested : ∃ refreshPending, (s.requestFullMap circumstances).1 = { s with refreshPending } := by
    fun_cases s.requestFullMap circumstances <;> exact ⟨_, rfl⟩
  fun_cases s.batchFailed circumstances fault
  any_goals exact ⟨_, rfl⟩
  all_goals next same => rwa [same] at requested

theorem finishRefresh_same (s : Client) (circumstances : Circumstances) :
    ∃ refreshPending, (s.finishRefresh circumstances).1 = { s with refreshPending } := by
  fun_cases s.finishRefresh circumstances <;> exact ⟨_, rfl⟩

theorem handled_nothing (pins : s.pinnedFSID.or (messageFSID config message) = s.pinnedFSID) :
    Handled config message circumstances s s := .nothing s.pinnedFSID s.refreshPending pins

theorem handleSubscribeAck_handled
    (named : messageFSID config message = (config.decodeSubscribeAck message).toOption.map SubscribeAck.fsid) :
    Handled config message circumstances s (s.handleSubscribeAck config message).1 := by
  unfold handleSubscribeAck
  cases decoded : config.decodeSubscribeAck message with
  | error err => exact handled_nothing (by rw [named, decoded]; exact Option.or_none)
  | ok ack =>
    rw [decoded] at named
    dsimp only
    split
    · next refused => exact handled_nothing (by rw [named]; exact pinFSID_error refused)
    · next pinned =>
      obtain ⟨rfl, pins⟩ := pinFSID_ok pinned
      exact .nothing (some ack.fsid) s.refreshPending (by rw [named]; exact pins)

theorem handleMonMap_handled
    (named : messageFSID config message = (config.decodeMonMap message).toOption.map MonMap.fsid) :
    Handled config message circumstances s (s.handleMonMap config message circumstances).1 := by
  unfold handleMonMap
  cases decoded : config.decodeMonMap message with
  | error err => exact handled_nothing (by rw [named, decoded]; exact Option.or_none)
  | ok monMap =>
    rw [decoded] at named
    dsimp only
    split
    · next refused => exact handled_nothing (by rw [named]; exact pinFSID_error refused)
    · next pinned =>
      obtain ⟨rfl, pins⟩ := pinFSID_ok pinned
      split
      · next newer =>
        have newer : ∀ current ∈ s.monMaps.head?, current.epoch < monMap.epoch := by
          intro current isCurrent
          simpa [Option.mem_def.mp isCurrent] using newer
        split <;> exact .monMap monMap _ (by rw [named]; exact pins) newer
      · exact .nothing (some monMap.fsid) s.refreshPending (by rw [named]; exact pins)

theorem handleMgrMap_handled (named : messageFSID config message = none) :
    Handled config message circumstances s (s.handleMgrMap config message).1 := by
  have unpinned : s.pinnedFSID.or (messageFSID config message) = s.pinnedFSID := by rw [named]; exact Option.or_none
  unfold handleMgrMap
  split
  · exact handled_nothing unpinned
  · next mgrMap _ =>
    split
    · next newer =>
      refine .mgrMap mgrMap named fun current isCurrent => ?_
      simpa [Option.mem_def.mp isCurrent] using newer
    · exact handled_nothing unpinned

theorem handleOSDMap_handled
    (named : messageFSID config message =
      (decodeOSDMapBatch message config.messageLimits).toOption.map OSDMapBatch.fsid) :
    Handled config message circumstances s (s.handleOSDMap config message circumstances).1 := by
  unfold handleOSDMap
  cases decoded : decodeOSDMapBatch message config.messageLimits with
  | error err => exact handled_nothing (by rw [named, decoded]; exact Option.or_none)
  | ok batch =>
    rw [decoded] at named
    dsimp only
    split
    · next refused => exact handled_nothing (by rw [named]; exact pinFSID_error refused)
    · next pinned =>
      obtain ⟨rfl, pins⟩ := pinFSID_ok pinned
      split
      · next fault _ =>
        obtain ⟨refreshPending, same⟩ := batchFailed_same { s with pinnedFSID := some batch.fsid } circumstances fault
        rw [same]
        exact .nothing (some batch.fsid) refreshPending (by rw [named]; exact pins)
      · next result applied =>
        obtain ⟨refreshPending, same⟩ :=
          finishRefresh_same ({ s with pinnedFSID := some batch.fsid }.publish result) circumstances
        rw [same]
        exact .osdMap batch result refreshPending decoded (by rw [named]; exact pins) applied

theorem handleMessage_handled (s : Client) (config : ClientConfig) (message : Message)
    (circumstances : Circumstances) :
    Handled config message circumstances s (s.handleMessage config message circumstances).1 := by
  fun_cases s.handleMessage config message circumstances
  · next isAck => exact handleSubscribeAck_handled (by rw [messageFSID, if_pos isAck])
  · next notAck isMonMap => exact handleMonMap_handled (by rw [messageFSID, if_neg notAck, if_pos isMonMap])
  · next notAck notMonMap isMgrMap =>
    exact handleMgrMap_handled (by rw [messageFSID, if_neg notAck, if_neg notMonMap, if_pos isMgrMap])
  · next notAck notMonMap notMgrMap isOSDMap =>
    exact handleOSDMap_handled
      (by rw [messageFSID, if_neg notAck, if_neg notMonMap, if_neg notMgrMap, if_pos isOSDMap])
  · next notAck notMonMap notMgrMap other =>
    refine handled_nothing ?_
    rw [messageFSID, if_neg notAck, if_neg notMonMap, if_neg notMgrMap, if_neg other]
    exact Option.or_none

/-- Maps of one kind, the last one first. -/
def Increasing {μ : Type} (epoch : μ → Nat) (maps : List μ) : Prop := (maps.map epoch).Pairwise (· > ·)

theorem Increasing.cons {μ : Type} {epoch : μ → Nat} {maps : List μ} (increasing : Increasing epoch maps) {osdMap : μ}
    (newer : ∀ current ∈ maps.head?, epoch current < epoch osdMap) : Increasing epoch (osdMap :: maps) := by
  unfold Increasing at *
  rw [← List.isChain_iff_pairwise] at *
  rw [List.map_cons, List.isChain_cons]
  refine ⟨fun number isHead => ?_, increasing⟩
  rw [List.head?_map] at isHead
  obtain ⟨current, isCurrent, rfl⟩ := Option.map_eq_some_iff.mp isHead
  exact newer current isCurrent

/-- What holds between the messages of a client. -/
structure Orderly (s : Client) : Prop where
  monMaps : Increasing MonMap.epoch s.monMaps
  mgrMaps : Increasing MgrMap.epoch s.mgrMaps
  osdMaps : Increasing OSDMap.epoch s.osdMaps
  monFSID : ∀ monMap ∈ s.monMaps, s.pinnedFSID = some monMap.fsid
  osdFSID : ∀ osdMap ∈ s.osdMaps, s.pinnedFSID = some osdMap.fsid
  sized : ∀ osdMap ∈ s.osdMaps, osdMap.Sized

variable {limits : Maps.Limits} {batch : OSDMapBatch} {fault : Fault}

/-- What `publish` does after an accepted batch. -/
theorem publish_eq {orders : Nat → Ranges} {result : BatchState} (sized : ∀ osdMap ∈ s.osdMaps, osdMap.Sized)
    (applied : applyBatch limits batch orders s.osdMap = .ok result) :
    s.publish result = s ∧ result.applied = [] ∨ ∃ osdMap ready, s.publish result = { s with
      osdGenerations := fun osd => if osd ∈ result.invalidated then s.osdGenerations osd + 1 else s.osdGenerations osd
      osdMaps := osdMap :: s.osdMaps
      osdMapChanges := s.osdMapChanges + 1
      ready } ∧ result.current = some osdMap ∧ osdMap.fsid = batch.fsid ∧ osdMap.Sized ∧
        ∀ current ∈ s.osdMaps.head?, current.epoch < osdMap.epoch := by
  have went := went_of_applyBatch (fun osdMap isCurrent => sized osdMap (List.mem_of_mem_head? isCurrent)) applied
  cases steps : result.applied with
  | nil =>
    refine .inl ⟨?_, rfl⟩
    unfold publish
    split
    · next other =>
      rw [steps] at other
      cases other
    · rfl
  | cons step rest =>
    obtain ⟨osdMap, isCurrent, sameFSID, newer⟩ := went.moved (by simp [steps])
    refine .inr ⟨osdMap, s.ready || !s.monMaps.isEmpty, ?_, isCurrent, sameFSID, went.sized osdMap isCurrent, newer⟩
    rw [publish, isCurrent, steps]

theorem Orderly.handled (orderly : s.Orderly) (handled : Handled config message circumstances s t) :
    t.Orderly ∧ t.pinnedFSID = s.pinnedFSID.or (messageFSID config message) := by
  -- Whoever was pinned stays pinned.
  have still {pinned fsid : FSID} (before : s.pinnedFSID = some pinned)
      (pins : s.pinnedFSID.or (messageFSID config message) = some fsid) : some fsid = some pinned := by
    rw [before] at pins
    exact pins.symm
  cases handled with
  | nothing pinnedFSID refreshPending pins =>
    refine ⟨{ orderly with monFSID := fun monMap member => ?_, osdFSID := fun osdMap member => ?_ }, pins.symm⟩
    · rw [← pins, orderly.monFSID monMap member]
      rfl
    · rw [← pins, orderly.osdFSID osdMap member]
      rfl
  | monMap monMap ready pins newer =>
    refine ⟨{ orderly with monMaps := orderly.monMaps.cons newer, monFSID := ?_, osdFSID := ?_ }, pins.symm⟩
    · intro other member
      rcases List.mem_cons.mp member with rfl | member
      · rfl
      · exact still (orderly.monFSID other member) pins
    · exact fun osdMap member => still (orderly.osdFSID osdMap member) pins
  | mgrMap mgrMap pins newer =>
    refine ⟨{ orderly with mgrMaps := orderly.mgrMaps.cons newer }, ?_⟩
    rw [pins, Option.or_none]
  | osdMap batch result refreshPending decoded pins applied =>
    have pinned : { s with pinnedFSID := some batch.fsid }.Orderly := { orderly with
      monFSID := fun monMap member => still (orderly.monFSID monMap member) pins
      osdFSID := fun osdMap member => still (orderly.osdFSID osdMap member) pins }
    rcases publish_eq pinned.sized applied with ⟨same, -⟩ | ⟨osdMap, ready, same, -, sameFSID, sized, newer⟩
    · rw [same]
      exact ⟨{ pinned with }, pins.symm⟩
    · rw [same]
      refine ⟨{ pinned with osdMaps := pinned.osdMaps.cons newer, osdFSID := ?_, sized := ?_ }, pins.symm⟩
      · intro other member
        rcases List.mem_cons.mp member with rfl | member
        · exact congrArg some sameFSID.symm
        · exact pinned.osdFSID other member
      · intro other member
        rcases List.mem_cons.mp member with rfl | member
        · exact sized
        · exact pinned.sized other member

theorem Orderly.run (orderly : s.Orderly) (config : ClientConfig) (messages : List (Message × Circumstances)) :
    (s.run config messages).Orderly ∧
    (s.run config messages).pinnedFSID =
      s.pinnedFSID.or (messages.findSome? fun message => messageFSID config message.1) := by
  induction messages generalizing s with
  | nil => exact ⟨orderly, Option.or_none.symm⟩
  | cons message rest ih =>
    obtain ⟨after, pins⟩ := orderly.handled (handleMessage_handled s config message.1 message.2)
    obtain ⟨final, pinned⟩ := ih after
    refine ⟨final, pinned.trans ?_⟩
    rw [pins, Option.or_assoc, List.findSome?_cons]
    cases messageFSID config message.1 <;> rfl

theorem orderly_new (pinnedFSID : Option FSID) : Orderly { pinnedFSID } := by
  constructor <;> simp [Increasing]

/-- The OSD map, the generations and the waiters are as before. -/
structure SameOSDMap (s t : Client) : Prop where
  osdMaps : t.osdMaps = s.osdMaps
  generations : t.osdGenerations = s.osdGenerations
  changes : t.osdMapChanges = s.osdMapChanges

theorem sameOSDMap_of_handled (handled : Handled config message circumstances s t)
    (decoded : decodeOSDMapBatch message config.messageLimits = .ok batch)
    (failed : applyBatch config.mapLimits batch circumstances.orders s.osdMap = .error fault) : s.SameOSDMap t := by
  cases handled with
  | nothing | monMap | mgrMap => exact ⟨rfl, rfl, rfl⟩
  | osdMap batch' result refreshPending decoded' pins applied =>
    cases decoded.symm.trans decoded'
    rw [failed] at applied
    cases applied

theorem handleOSDMap_error (failed : (s.handleOSDMap config message circumstances).2 = .error fault) :
    s.SameOSDMap (s.handleOSDMap config message circumstances).1 ∨
      ∃ batch result err, decodeOSDMapBatch message config.messageLimits = .ok batch ∧
        applyBatch config.mapLimits batch circumstances.orders s.osdMap = .ok result ∧
        circumstances.subscribeErr = some err ∧ fault = .err err := by
  revert failed
  fun_cases s.handleOSDMap config message circumstances
  · exact fun _ => .inl ⟨rfl, rfl, rfl⟩
  · exact fun _ => .inl ⟨rfl, rfl, rfl⟩
  · next batch _ pinned pins cause _ =>
    obtain ⟨rfl, -⟩ := pinFSID_ok pins
    obtain ⟨refreshPending, same⟩ := batchFailed_same { s with pinnedFSID := some batch.fsid } circumstances cause
    rw [same]
    exact fun _ => .inl ⟨rfl, rfl, rfl⟩
  · next batch decoded pinned pins result applied =>
    obtain ⟨rfl, -⟩ := pinFSID_ok pins
    fun_cases finishRefresh (publish { s with pinnedFSID := some batch.fsid } result) circumstances
    all_goals rintro ⟨⟩
    next err isErr => exact .inr ⟨batch, result, err, decoded, applied, isErr, rfl⟩

theorem handleMessage_osdMap (isOSDMap : message.header.type = messageOSDMap) :
    s.handleMessage config message circumstances = s.handleOSDMap config message circumstances := by
  rw [handleMessage, isOSDMap]
  rfl

theorem handleOSDMap_applied {pinned : Client} {result : BatchState}
    (decoded : decodeOSDMapBatch message config.messageLimits = .ok batch) (pins : s.pinFSID batch.fsid = .ok pinned)
    (applied : applyBatch config.mapLimits batch circumstances.orders pinned.osdMap = .ok result) :
    s.handleOSDMap config message circumstances = (pinned.publish result).finishRefresh circumstances := by
  rw [handleOSDMap, decoded]
  dsimp only
  rw [pins]
  dsimp only
  rw [applied]

/-- The epochs of the published maps increase; monitor and OSD maps are of the pinned cluster, which is the configured
one or the one of the first message that names one; and a batch that fails changes neither the OSD map nor the
generations nor the waiters. A message with an accepted batch can end with an error as well, if the subscription that
follows a refresh cannot be sent. -/
theorem published_maps (config : ClientConfig) (expected : Option FSID) (messages : List (Message × Circumstances))
    (s : Client) (reached : s = run { pinnedFSID := expected } config messages) :
    Increasing MonMap.epoch s.monMaps ∧ Increasing MgrMap.epoch s.mgrMaps ∧ Increasing OSDMap.epoch s.osdMaps ∧
    (∀ monMap ∈ s.monMaps, s.pinnedFSID = some monMap.fsid) ∧
      (∀ osdMap ∈ s.osdMaps, s.pinnedFSID = some osdMap.fsid) ∧
    s.pinnedFSID = expected.or (messages.findSome? fun message => messageFSID config message.1) ∧
    (∀ fsid later, s.pinnedFSID = some fsid → (s.run config later).pinnedFSID = some fsid) ∧
    (∀ message circumstances batch fault, decodeOSDMapBatch message config.messageLimits = .ok batch →
      applyBatch config.mapLimits batch circumstances.orders s.osdMap = .error fault →
      s.SameOSDMap (s.handleMessage config message circumstances).1) ∧
    ∀ message circumstances fault, message.header.type = messageOSDMap →
      (s.handleMessage config message circumstances).2 = .error fault →
      s.SameOSDMap (s.handleMessage config message circumstances).1 ∨
        ∃ batch result err, decodeOSDMapBatch message config.messageLimits = .ok batch ∧
          applyBatch config.mapLimits batch circumstances.orders s.osdMap = .ok result ∧
          circumstances.subscribeErr = some err ∧ fault = .err err := by
  obtain ⟨orderly, pinned⟩ := (orderly_new expected).run config messages
  subst reached
  refine ⟨orderly.monMaps, orderly.mgrMaps, orderly.osdMaps, orderly.monFSID, orderly.osdFSID, pinned, ?_, ?_, ?_⟩
  · intro fsid later isPinned
    rw [(orderly.run config later).2, isPinned]
    rfl
  · intro message circumstances batch fault decoded failed
    exact sameOSDMap_of_handled (handleMessage_handled _ config message circumstances) decoded failed
  · intro message circumstances fault isOSDMap failed
    rw [handleMessage_osdMap isOSDMap] at failed ⊢
    exact handleOSDMap_error failed

/-- The limits suffice for the map of the samples; a monitor map has the length of its message as its epoch. -/
def sampleConfig : ClientConfig where
  mapLimits := sampleLimits
  messageLimits := ⟨1000, 1⟩
  subscribePeriod := 1
  decodeSubscribeAck _ := .error Sentinel.wireMalformed
  decodeMonMap message := .ok ⟨twoPoolsMap.fsid, message.front.length⟩
  decodeMgrMap _ := .error Sentinel.wireMalformed

def monMapMessage (epoch : Nat) : Message := { header := { type := messageMonMap }, front := List.replicate epoch 0 }

def fullMapFront : Bytes :=
  twoPoolsMap.fsid ++ words [0, 1, 5, 621] ++ twoPoolsPayload ++ words [5, 5]

def fullMapMessage : Message where
  header := { type := messageOSDMap, version := 3 }
  front := fullMapFront
  lengths := { front := fullMapFront.length }

def fullMapBatch : OSDMapBatch := ⟨twoPoolsMap.fsid, ∅, Finmap.singleton 5 twoPoolsPayload, 5, 5⟩

theorem fullMap_decoded : decodeOSDMapBatch fullMapMessage sampleConfig.messageLimits = .ok fullMapBatch := by
  decide +kernel

theorem fullMap_applied (orders : Nat → Ranges) : applyBatch sampleConfig.mapLimits fullMapBatch orders none =
    .ok { current := some twoPoolsMap, appliedFull := true, applied := [.full none twoPoolsMap] } := by
  have full : applyFull sampleConfig.mapLimits fullMapBatch { current := none } 5 =
      .ok { current := some twoPoolsMap, appliedFull := true, applied := [.full none twoPoolsMap] } := by
    have blob : (fullMapBatch.fullMaps.lookup 5).getD [] = twoPoolsPayload := by decide +kernel
    rw [applyFull, if_neg (by simp), blob, show decodeOSDMap sampleConfig.mapLimits _ = _ from twoPools_decoded]
    rfl
  have epochs : sortedEpochs fullMapBatch.fullMaps = [5] ∧ sortedEpochs fullMapBatch.incrementals = [] := by
    decide +kernel
  rw [applyBatch, epochs.1, epochs.2, List.foldlM_cons, except_bind_eq full]
  rfl

def anyOrders : Nat → Ranges := fun _ => ⟨[], [], [], [], [], [], [], [], [], [], [], [], fun _ => []⟩

/-- The second monitor map is older than the first one. -/
def fullMapRun : List (Message × Circumstances) :=
  [monMapMessage 2, monMapMessage 1, fullMapMessage].map (·, { orders := anyOrders })

/-- The older monitor map is dropped, the OSD map is kept. -/
theorem published_maps_fullMap : (run {} sampleConfig fullMapRun).osdMaps = [twoPoolsMap] ∧
    Increasing MonMap.epoch (run {} sampleConfig fullMapRun).monMaps ∧
    (run {} sampleConfig fullMapRun).pinnedFSID = some twoPoolsMap.fsid := by
  have osdMaps : (run {} sampleConfig fullMapRun).osdMaps = [twoPoolsMap] := by
    rw [run, fullMapRun, List.map_cons, List.map_cons, List.map_cons, List.map_nil, List.foldl_cons, List.foldl_cons,
      List.foldl_cons, List.foldl_nil]
    dsimp only
    rw [handleMessage_osdMap rfl, handleOSDMap_applied fullMap_decoded rfl (fullMap_applied anyOrders)]
    rfl
  obtain ⟨monMaps, -, -, -, pinned, -⟩ := published_maps sampleConfig none fullMapRun _ rfl
  exact ⟨osdMaps, monMaps, pinned _ (osdMaps ▸ List.mem_cons_self)⟩

end Client

end RadosGo.Mon
