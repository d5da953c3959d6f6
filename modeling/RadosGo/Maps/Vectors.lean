import RadosGo.Library.Meets
import RadosGo.Maps.Decoded

namespace RadosGo.Maps

open List

open Crush (assigned_ok indexed_ok)

/-- The call returned an error and did not panic. -/
def IsError (fault : Fault) : Prop := ∃ err, fault = .err err

variable {α : Type} {values : List α} {index : Nat}

theorem meets_failure {property : α → Prop} (detail : String) : Meets IsError (failure detail) property :=
  meets_error ⟨_, rfl⟩

theorem meets_assigned {value : α} (within : index < values.length) :
    Meets IsError (Crush.assigned values index value) (values.set index value = ·) := by
  rw [assigned_ok within]
  exact meets_pure rfl

theorem meets_indexed (within : index < values.length) :
    Meets IsError (Crush.indexed values index) (values[index]? = some ·) := by
  obtain ⟨value, ok, read⟩ := indexed_ok within
  rw [ok]
  exact meets_pure read

/-- The vectors have an entry for each OSD. There may be no affinities at all. -/
structure OSDVectors.Sized (vectors : OSDVectors) (size : Nat) : Prop where
  state : vectors.osdState.length = size
  weight : vectors.osdWeight.length = size
  addresses : vectors.clientAddresses.length = size
  affinity : vectors.primaryAffinity.length = 0 ∨ vectors.primaryAffinity.length = size

/-- The vectors of a map. -/
def OSDMap.vectors (osdMap : OSDMap) : OSDVectors :=
  ⟨osdMap.osdState, osdMap.osdWeight, osdMap.primaryAffinity, osdMap.clientAddresses⟩

/-- The number of OSDs of a map is that of its vectors. -/
structure OSDMap.Sized (osdMap : OSDMap) : Prop where
  nonneg : 0 ≤ osdMap.maxOSD
  vectors : osdMap.vectors.Sized osdMap.maxOSD.toNat

section Steps

variable {vectors : OSDVectors} {size : Nat} (sized : vectors.Sized size)

theorem resizeUint32s_length {α : Type} (values : List α) (fill : α) (size : Nat) :
    (resizeUint32s values fill size).length = size := by
  rw [resizeUint32s]
  split
  · next long => exact length_take_of_le (Nat.le_of_lt long)
  · next short => simp only [length_append, length_replicate]; omega

theorem resizeOSDs_sized (vectors : OSDVectors) (size : Nat) : (resizeOSDs vectors size).Sized size := by
  refine ⟨resizeUint32s_length .., resizeUint32s_length .., resizeUint32s_length .., ?_⟩
  rw [resizeOSDs]
  dsimp only
  split
  · right
    simp only [length_take, length_append, length_replicate]
    omega
  · next none => exact .inl (not_not.mp none)

include sized

theorem validateOSD_meets (osd : Int) : Meets IsError (validateOSD vectors osd) fun _ => osd.toNat < size := by
  rw [validateOSD]
  split
  · exact meets_failure _
  · next inside =>
    have length := sized.state
    exact meets_pure (by omega)

theorem applyWeight_meets (entry : Int × Nat) :
    Meets IsError (applyWeight vectors entry) fun after =>
      after.Sized size ∧ after.primaryAffinity = vectors.primaryAffinity := by
  obtain ⟨osd, weight⟩ := entry
  refine (validateOSD_meets sized osd).bind fun _ within => ?_
  refine (meets_assigned (sized.weight.symm ▸ within)).bind ?_
  rintro _ rfl
  have weights : (vectors.osdWeight.set osd.toNat weight).length = size := by rw [length_set, sized.weight]
  split
  · exact meets_pure ⟨⟨sized.state, weights, sized.addresses, sized.affinity⟩, rfl⟩
  · refine (meets_indexed (sized.state.symm ▸ within)).bind fun state _ => ?_
    refine (meets_assigned (sized.state.symm ▸ within)).bind ?_
    rintro _ rfl
    exact meets_pure ⟨⟨by rw [length_set, sized.state], weights, sized.addresses, sized.affinity⟩, rfl⟩

theorem applyAffinity_meets (full : vectors.primaryAffinity.length = size) (entry : Int × Nat) :
    Meets IsError (applyAffinity vectors entry) fun after =>
      after.Sized size ∧ after.primaryAffinity.length = size := by
  obtain ⟨osd, affinity⟩ := entry
  refine (validateOSD_meets sized osd).bind fun _ within => ?_
  refine (meets_assigned (full.symm ▸ within)).bind ?_
  rintro _ rfl
  have length : (vectors.primaryAffinity.set osd.toNat affinity).length = size := by rw [length_set, full]
  exact meets_pure ⟨⟨sized.state, sized.weight, sized.addresses, .inr length⟩, length⟩

theorem applyState_meets (entry : Int × Nat) : Meets IsError (applyState vectors entry) (·.Sized size) := by
  obtain ⟨osd, change⟩ := entry
  refine (validateOSD_meets sized osd).bind fun _ within => ?_
  refine (meets_indexed (sized.state.symm ▸ within)).bind fun state _ => ?_
  split
  · refine (meets_assigned (sized.state.symm ▸ within)).bind ?_
    rintro _ rfl
    refine (meets_assigned (sized.addresses.symm ▸ within)).bind ?_
    rintro _ rfl
    refine meets_pure ⟨by rw [length_set, sized.state], sized.weight, by rw [length_set, sized.addresses], ?_⟩
    dsimp only
    split
    · rw [length_set]
      exact sized.affinity
    · exact sized.affinity
  · refine (meets_assigned (sized.state.symm ▸ within)).bind ?_
    rintro _ rfl
    exact meets_pure ⟨by rw [length_set, sized.state], sized.weight, sized.addresses, sized.affinity⟩

theorem applyAddresses_meets (entry : Int × EntityAddrVec) :
    Meets IsError (applyAddresses vectors entry) (·.Sized size) := by
  obtain ⟨osd, addresses⟩ := entry
  refine (validateOSD_meets sized osd).bind fun _ within => ?_
  refine (meets_indexed (sized.state.symm ▸ within)).bind fun state _ => ?_
  refine (meets_assigned (sized.state.symm ▸ within)).bind ?_
  rintro _ rfl
  refine (meets_assigned (sized.addresses.symm ▸ within)).bind ?_
  rintro _ rfl
  exact meets_pure ⟨by rw [length_set, sized.state], sized.weight, by rw [length_set, sized.addresses],
    sized.affinity⟩

omit sized in
theorem createAffinity_sized {maxOSD : Int} (sized : vectors.Sized maxOSD.toNat) (changes : Nat) :
    (createAffinity vectors maxOSD changes).Sized maxOSD.toNat ∧
      (0 < changes → (createAffinity vectors maxOSD changes).primaryAffinity.length = maxOSD.toNat) := by
  rw [createAffinity]
  split
  · exact ⟨⟨sized.state, sized.weight, sized.addresses, .inr length_replicate⟩, fun _ => length_replicate⟩
  · next keeps =>
    refine ⟨sized, fun some => ?_⟩
    rcases sized.affinity with none | full
    · exact absurd ⟨some, none⟩ keeps
    · exact full

end Steps

section Apply

variable {ranges : Ranges} {current : OSDMap} {incremental : OSDMapIncremental}

theorem startVectors_sized (sized : current.Sized) (incremental : OSDMapIncremental) :
    (startVectors current incremental).Sized (nextMaxOSD current incremental).toNat := by
  rw [startVectors, nextMaxOSD]
  split
  · exact resizeOSDs_sized _ _
  · exact sized.vectors

theorem applyVectors_meets (sized : current.Sized) :
    Meets IsError (applyVectors ranges current incremental) (·.Sized (nextMaxOSD current incremental).toNat) := by
  have start := startVectors_sized sized incremental
  refine (meets_foldlM _ (fun vectors entry _ sized => (applyWeight_meets sized entry).mono fun _ after => after.1)
    start).bind fun weighted sized => ?_
  obtain ⟨created, full⟩ := createAffinity_sized sized ranges.newPrimaryAffinity.length
  have affinities : Meets IsError (ranges.newPrimaryAffinity.foldlM applyAffinity
      (createAffinity weighted (nextMaxOSD current incremental) ranges.newPrimaryAffinity.length))
      (·.Sized (nextMaxOSD current incremental).toNat) := by
    by_cases none : ranges.newPrimaryAffinity = []
    · rw [none] at created ⊢
      exact created
    · refine (meets_foldlM _ (fun vectors entry _ both => applyAffinity_meets both.1 both.2 entry)
        ⟨created, full (length_pos_of_ne_nil none)⟩).mono fun _ after => after.1
  refine affinities.bind fun vectors sized => ?_
  refine (meets_foldlM _ (fun vectors entry _ sized => applyState_meets sized entry) sized).bind fun vectors
    sized => ?_
  exact meets_foldlM _ (fun vectors entry _ sized => applyAddresses_meets sized entry) sized

theorem renamePool_meets (names : Names) (entry : Int × Bytes) :
    Meets IsError (renamePool names entry) fun _ => True := by
  unfold renamePool
  dsimp only
  split
  · exact meets_failure _
  · split
    · exact meets_failure _
    · exact meets_pure trivial

theorem applyPools_meets : Meets IsError (applyPools ranges current incremental) fun _ => True :=
  (meets_foldlM _ (fun names entry _ _ => renamePool_meets names entry) trivial).bind fun _ _ => meets_pure trivial

theorem checkNames_meets (pools : List (Int × Pool)) : Meets IsError (checkNames pools) fun _ => True := by
  induction pools with
  | nil => exact meets_pure trivial
  | cons pool pools ih =>
    obtain ⟨id, pool⟩ := pool
    rw [checkNames]
    split
    · exact meets_failure _
    · exact ih

theorem applyChanges_meets (sized : current.Sized) :
    Meets IsError (applyChanges ranges current incremental) fun next =>
    next.Sized ∧ next.maxOSD = nextMaxOSD current incremental := by
  refine applyPools_meets.bind fun names _ => ?_
  refine (applyVectors_meets sized).bind fun vectors sized' => ?_
  refine (checkNames_meets _).bind fun _ _ => meets_pure ⟨⟨?_, sized'⟩, rfl⟩
  change 0 ≤ nextMaxOSD current incremental
  rw [nextMaxOSD]
  split
  · assumption
  · exact sized.nonneg

end Apply

section Decode

open Decoding

variable {limits : Limits}

theorem yields_decodeVectors : Yields (decodeVectors limits) fun vectors =>
    vectors.Consistent limits ∧ vectors.maxOSD < 2 ^ 31 := by
  refine .after fun poolMax => .after fun flags => yields_int32.bind fun maxOSD bounds => ?_
  refine .after fun osdState => .after fun osdWeight => .after fun clientAddresses => ?_
  refine .after fun pgTemp => .after fun primaryTemp => .after fun primaryAffinity => ?_
  dsimp only
  split
  · exact yields_throw _ _
  · next consistent => exact yields_pure ⟨not_not.mp consistent, bounds.2⟩

theorem yields_decodeOSDMapClient : Yields (decodeOSDMapClient limits) fun osdMap =>
    osdMap.Sized ∧ osdMap.maxOSD < 2 ^ 31 := by
  refine .after fun heading => .after fun pools => .after fun names =>
    yields_decodeVectors.bind fun vectors consistent => ?_
  refine .after fun crushData => .after fun profiles => .after fun pgUpmap => .after fun pgUpmapItems => ?_
  refine .after fun crushVersion => .after fun removed => .after fun purged => .after fun lastUp => ?_
  refine .after fun lastIn => .after fun primaries => .after fun _ => yields_pure ?_
  obtain ⟨⟨nonneg, -, state, weight, addresses, affinity⟩, small⟩ := consistent
  refine ⟨⟨nonneg, ?_, ?_, ?_, ?_⟩, small⟩
  · change (vectors.osdState.map UInt32.ofNat).length = vectors.maxOSD.toNat
    rw [length_map]
    omega
  · change vectors.osdWeight.length = vectors.maxOSD.toNat
    omega
  · change vectors.clientAddresses.length = vectors.maxOSD.toNat
    omega
  · change vectors.primaryAffinity.length = 0 ∨ vectors.primaryAffinity.length = vectors.maxOSD.toNat
    omega

/-- A decoded map has vectors of one length, which is an `int32`. -/
theorem decodeOSDMap_sized {data : Bytes} {osdMap : OSDMap} (decoded : decodeOSDMap limits data = .ok osdMap) :
    osdMap.Sized ∧ osdMap.maxOSD < 2 ^ 31 := by
  obtain ⟨client, crc, decoder, read, rfl, -⟩ := decodeOSDMap_ok decoded
  have sized := Yields.of_eval yields_decodeOSDMapClient read
  exact ⟨⟨sized.1.nonneg, sized.1.vectors⟩, sized.2⟩

end Decode

/-- The numbers of an incremental have the widths of their Go types. -/
structure OSDMapIncremental.Representable (incremental : OSDMapIncremental) : Prop where
  maxOSD : incremental.newMaxOSD < 2 ^ 31

/-- The maps which accepted incrementals make of a decoded map. -/
inductive Chain (limits : Limits) : OSDMap → Prop where
  | full {data : Bytes} {osdMap : OSDMap} (decoded : decodeOSDMap limits data = .ok osdMap) : Chain limits osdMap
  | next {current next : OSDMap} {incremental : OSDMapIncremental} {ranges : Ranges} (chain : Chain limits current)
      (representable : incremental.Representable) (order : ranges.Of incremental)
      (applied : applyOSDMapIncremental ranges current incremental limits = .ok next) : Chain limits next

theorem replaceMap_meets {limits : Limits} (current : OSDMap) (incremental : OSDMapIncremental) :
    Meets IsError (replaceMap current incremental limits) fun next =>
      ∃ data, decodeOSDMap limits data = .ok next := by
  rw [replaceMap]
  cases decoded : decodeOSDMap limits incremental.fullMap with
  | error err => exact meets_error ⟨_, rfl⟩
  | ok replacement =>
    dsimp only
    split
    · exact meets_failure _
    · exact meets_pure ⟨_, decoded⟩

/-- The application of an incremental never panics. -/
theorem apply_meets {ranges : Ranges} {current : OSDMap} (sized : current.Sized) (incremental : OSDMapIncremental)
    (limits : Limits) : Meets IsError (applyOSDMapIncremental ranges current incremental limits) fun next =>
      (∃ data, decodeOSDMap limits data = .ok next) ∨
        (next.Sized ∧ next.maxOSD = nextMaxOSD current incremental) := by
  rw [applyOSDMapIncremental]
  split
  · exact meets_failure _
  · split
    · exact meets_failure _
    · split
      · exact (replaceMap_meets current incremental).mono fun _ decoded => .inl decoded
      · exact (applyChanges_meets sized).mono fun _ sized => .inr sized

theorem Chain.sized {limits : Limits} {osdMap : OSDMap} (chain : Chain limits osdMap) :
    osdMap.Sized ∧ osdMap.maxOSD < 2 ^ 31 := by
  induction chain with
  | full decoded => exact decodeOSDMap_sized decoded
  | @next current next incremental ranges chain representable order applied ih =>
    rcases (apply_meets ih.1 incremental limits).of_ok applied with ⟨data, decoded⟩ | ⟨sized, maxOSD⟩
    · exact decodeOSDMap_sized decoded
    · refine ⟨sized, ?_⟩
      rw [maxOSD, nextMaxOSD]
      split
      · exact representable.maxOSD
      · exact ih.2

end RadosGo.Maps
