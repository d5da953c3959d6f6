import RadosGo.Maps.Renames
import RadosGo.Maps.Vectors

namespace RadosGo.Maps

open List OSDVectors

section Vectors

/-- What the vectors hold for one OSD. -/
structure OSDEntry where
  state : UInt32
  weight : Nat
  affinity : Nat
  addresses : EntityAddrVec

namespace OSDVectors

variable (vectors : OSDVectors)

def entry (osd : Nat) : OSDEntry :=
  ⟨vectors.osdState.getD osd 0, vectors.osdWeight.getD osd 0, vectors.primaryAffinity.getD osd 0,
    vectors.clientAddresses.getD osd []⟩

def put (osd : Nat) (entry : OSDEntry) : OSDVectors :=
  ⟨vectors.osdState.set osd entry.state, vectors.osdWeight.set osd entry.weight,
    vectors.primaryAffinity.set osd entry.affinity, vectors.clientAddresses.set osd entry.addresses⟩

/-- A change of the entry of one OSD. -/
def touch (osd : Nat) (change : OSDEntry → OSDEntry) : OSDVectors := vectors.put osd (change (vectors.entry osd))

variable {vectors}

theorem set_getD_self {α : Type} (values : List α) (index : Nat) (default : α) :
    values.set index (values.getD index default) = values := by
  by_cases within : index < values.length
  · rw [getD_eq_getElem _ _ within, set_getElem_self]
  · exact set_eq_of_length_le (Nat.le_of_not_lt within)

theorem getD_set_ne {α : Type} {values : List α} {first second : Nat} (apart : first ≠ second) (value default : α) :
    (values.set first value).getD second default = values.getD second default := by
  rw [getD_eq_getElem?_getD, getElem?_set_ne apart, getD_eq_getElem?_getD]

/-- Changes of different OSDs may change places. -/
theorem touch_comm {first second : Nat} (apart : first ≠ second) (change change' : OSDEntry → OSDEntry) :
    (vectors.touch first change).touch second change' = (vectors.touch second change').touch first change := by
  have unchanged : ∀ entry, (vectors.put first entry).entry second = vectors.entry second := by
    intro entry
    simp only [put, OSDVectors.entry, getD_set_ne apart]
  have unchanged' : ∀ entry, (vectors.put second entry).entry first = vectors.entry first := by
    intro entry
    simp only [put, OSDVectors.entry, getD_set_ne (Ne.symm apart)]
  rw [touch, touch, unchanged, touch, touch, unchanged']
  simp only [put, set_comm _ _ apart]

theorem Sized.touch {size : Nat} (sized : vectors.Sized size) (osd : Nat) (change : OSDEntry → OSDEntry) :
    (vectors.touch osd change).Sized size :=
  ⟨length_set.trans sized.state, length_set.trans sized.weight, length_set.trans sized.addresses,
    by simpa only [OSDVectors.touch, put, length_set] using sized.affinity⟩

end OSDVectors

/-- The number is that of an OSD of the map. -/
def Inside (size : Nat) (osd : Int) : Prop := 0 ≤ osd ∧ osd < size

instance decidableInside (size : Nat) (osd : Int) : Decidable (Inside size osd) := inferInstanceAs (Decidable (_ ∧ _))

section Loop

variable {β : Type} {step : OSDVectors → Int × β → Except Fault OSDVectors} {change : Int × β → OSDEntry → OSDEntry}
  {size : Nat} {inv : OSDVectors → Prop} {vectors : OSDVectors}

/-- A step is a change of the entry of its OSD, unless that is outside of the map. -/
def Touches (step : OSDVectors → Int × β → Except Fault OSDVectors) (change : Int × β → OSDEntry → OSDEntry)
    (size : Nat) (inv : OSDVectors → Prop) : Prop :=
  ∀ vectors, inv vectors → ∀ entry, (step vectors entry).toOption =
    if Inside size entry.1 then some (vectors.touch entry.1.toNat (change entry)) else none

variable (touches : Touches step change size inv)
    (keeps : ∀ vectors osd change, inv vectors → inv (vectors.touch osd change))

include touches keeps

theorem Touches.after {entry : Int × β} {after : OSDVectors} (holds : inv vectors)
    (ran : step vectors entry = .ok after) : inv after := by
  have run := touches vectors holds entry
  rw [ran] at run
  split at run
  · exact Option.some.inj run ▸ keeps _ _ _ holds
  · cases run

/-- The loop does not depend on the order of its entries. -/
theorem Touches.foldlM_perm {first second : List (Int × β)} (perm : first.Perm second)
    (nodup : (first.map Prod.fst).Nodup) (start : inv vectors) :
    (first.foldlM step vectors).toOption = (second.foldlM step vectors).toOption := by
  refine RadosGo.foldlM_perm inv (fun holds ran => touches.after keeps holds ran) perm ?_ start
  refine List.Pairwise.imp (fun {a b} apart vectors holds => ?_) (pairwise_map.mp nodup)
  have both (a b : Int × β) : (step vectors a >>= (step · b)).toOption =
      if Inside size a.1 ∧ Inside size b.1 then
        some ((vectors.touch a.1.toNat (change a)).touch b.1.toNat (change b)) else none := by
    have run := touches vectors holds a
    cases ran : step vectors a with
    | error err =>
      rw [ran] at run
      split at run
      · cases run
      · next outside =>
        rw [if_neg fun inside => outside inside.1]
        rfl
    | ok after =>
      rw [ran] at run
      split at run
      · next inside =>
        cases run
        rw [show (Except.ok (vectors.touch a.1.toNat (change a)) >>= (step · b)) = step _ b from rfl,
          touches _ (keeps _ _ _ holds) b, if_congr (and_iff_right inside) rfl rfl]
      · cases run
  rw [both, both, if_congr and_comm rfl rfl]
  split
  · next inside =>
    have different : a.1.toNat ≠ b.1.toNat := by
      have := inside.1.1
      have := inside.2.1
      omega
    rw [touch_comm different]
  · rfl

/-- The loop succeeds exactly if all its OSDs are inside of the map. -/
theorem Touches.foldlM_ok_iff (entries : List (Int × β)) (start : inv vectors) :
    (∃ after, entries.foldlM step vectors = .ok after) ↔ ∀ entry ∈ entries, Inside size entry.1 := by
  induction entries generalizing vectors with
  | nil => exact ⟨fun _ => by simp, fun _ => ⟨vectors, rfl⟩⟩
  | cons entry entries ih =>
    have run := touches vectors start entry
    rw [foldlM_cons, forall_mem_cons]
    cases ran : step vectors entry with
    | error err =>
      rw [ran] at run
      split at run
      · cases run
      · next outside =>
        constructor
        · rintro ⟨after, failed⟩
          cases failed
        · exact fun inside => absurd inside.1 outside
    | ok middle =>
      rw [ran] at run
      split at run
      · next inside =>
        rw [and_iff_right inside]
        exact ih (touches.after keeps start ran)
      · cases run

end Loop

section Steps

variable {size : Nat}

variable {α : Type} {vectors : OSDVectors} {osd : Int}

theorem indexed_getD {values : List α} {index : Nat} (within : index < values.length) (default : α) :
    Crush.indexed values index = .ok (values.getD index default) := by
  obtain ⟨value, ok, read⟩ := Crush.indexed_ok within
  rw [ok, getD_eq_getElem?_getD, read]
  rfl

theorem validateOSD_inside (sized : vectors.Sized size) (inside : Inside size osd) :
    validateOSD vectors osd = .ok () := by
  have length := sized.state
  rw [validateOSD, if_neg (by rw [Inside] at inside; omega)]

theorem validateOSD_outside (sized : vectors.Sized size) (outside : ¬Inside size osd) :
    ∃ err, validateOSD vectors osd = .error err := by
  have length := sized.state
  rw [validateOSD, if_pos (by rw [Inside] at outside; omega)]
  exact ⟨_, rfl⟩

theorem Inside.within (inside : Inside size osd) : osd.toNat < size := by
  rw [Inside] at inside
  omega

/-- A step which begins with the check of its OSD. -/
theorem touches_of_inside {β : Type} {step : OSDVectors → Int × β → Except Fault OSDVectors}
    {change : Int × β → OSDEntry → OSDEntry} {inv : OSDVectors → Prop}
    (sized : ∀ vectors, inv vectors → vectors.Sized size)
    (checks : ∀ vectors entry err, validateOSD vectors entry.1 = .error err → step vectors entry = .error err)
    (runs : ∀ vectors, inv vectors → ∀ entry, Inside size entry.1 →
      step vectors entry = .ok (vectors.touch entry.1.toNat (change entry))) : Touches step change size inv := by
  intro vectors holds entry
  split
  · next inside =>
    rw [runs vectors holds entry inside]
    rfl
  · next outside =>
    obtain ⟨err, failed⟩ := validateOSD_outside (sized vectors holds) outside
    rw [checks vectors entry err failed]
    rfl

theorem checked_error {check : Except Fault Unit} {err : Fault} {next : Unit → Except Fault α}
    (failed : check = .error err) : check >>= next = .error err := by
  rw [failed]
  rfl

theorem applyWeight_touches : Touches applyWeight (fun change entry =>
    { entry with weight := change.2, state := if change.2 = 0 then entry.state else entry.state &&& ~~~12 }) size
      (·.Sized size) := by
  refine touches_of_inside (fun _ sized => sized) (fun _ _ _ => checked_error) fun vectors sized entry inside => ?_
  obtain ⟨osd, weight⟩ := entry
  have within := inside.within
  rw [applyWeight]
  rw [validateOSD_inside sized inside, except_bind_eq rfl, Crush.assigned_ok (by rwa [sized.weight]),
    except_bind_eq rfl]
  split
  · simp only [touch, put, entry, set_getD_self]
    rfl
  · rw [indexed_getD (by rwa [sized.state]) 0, except_bind_eq rfl, Crush.assigned_ok (by rwa [sized.state]),
      except_bind_eq rfl]
    simp only [touch, put, entry, set_getD_self]
    rfl

theorem applyAffinity_touches : Touches applyAffinity (fun change entry => { entry with affinity := change.2 }) size
    fun vectors => vectors.Sized size ∧ vectors.primaryAffinity.length = size := by
  refine touches_of_inside (fun _ both => both.1) (fun _ _ _ => checked_error) fun vectors both entry inside => ?_
  obtain ⟨osd, affinity⟩ := entry
  have within := inside.within
  rw [applyAffinity]
  rw [validateOSD_inside both.1 inside, except_bind_eq rfl, Crush.assigned_ok (by rwa [both.2]), except_bind_eq rfl]
  simp only [touch, put, entry, set_getD_self]
  rfl

/-- The entry of an OSD after a change of its state. -/
def changedState (change : Nat) (entry : OSDEntry) : OSDEntry :=
  if entry.state &&& osdStateExists ≠ 0 ∧ stateChange change &&& osdStateExists ≠ 0 then
    { entry with state := 0, affinity := defaultPrimaryAffinity, addresses := [] }
  else { entry with state := entry.state ^^^ stateChange change }

theorem applyState_touches : Touches applyState (fun change => changedState change.2) size (·.Sized size) := by
  refine touches_of_inside (fun _ sized => sized) (fun _ _ _ => checked_error) fun vectors sized entry inside => ?_
  obtain ⟨osd, change⟩ := entry
  have within := inside.within
  rw [applyState]
  rw [validateOSD_inside sized inside, except_bind_eq rfl, indexed_getD (by rwa [sized.state]) 0, except_bind_eq rfl]
  by_cases destroyed : vectors.osdState.getD osd.toNat 0 &&& osdStateExists ≠ 0 ∧
    stateChange change &&& osdStateExists ≠ 0
  · have changed : changedState change (vectors.entry osd.toNat) = { vectors.entry osd.toNat with
        state := 0, affinity := defaultPrimaryAffinity, addresses := [] } := if_pos destroyed
    have affinities : (if osd.toNat < vectors.primaryAffinity.length then
        vectors.primaryAffinity.set osd.toNat defaultPrimaryAffinity else vectors.primaryAffinity) =
        vectors.primaryAffinity.set osd.toNat defaultPrimaryAffinity := by
      split
      · rfl
      · next short => exact (set_eq_of_length_le (Nat.le_of_not_lt short)).symm
    rw [if_pos destroyed, Crush.assigned_ok (by rwa [sized.state]), except_bind_eq rfl,
      Crush.assigned_ok (by rwa [sized.addresses]), except_bind_eq rfl, touch, changed, affinities]
    simp only [put, entry, set_getD_self]
    rfl
  · have changed : changedState change (vectors.entry osd.toNat) = { vectors.entry osd.toNat with
        state := (vectors.entry osd.toNat).state ^^^ stateChange change } := if_neg destroyed
    rw [if_neg destroyed, Crush.assigned_ok (by rwa [sized.state]), except_bind_eq rfl, touch, changed]
    simp only [put, entry, set_getD_self]
    rfl

theorem applyAddresses_touches : Touches applyAddresses (fun change entry => { entry with
    state := (entry.state ||| osdStateExists ||| osdStateUp) &&& ~~~osdStateStop, addresses := change.2 }) size
      (·.Sized size) := by
  refine touches_of_inside (fun _ sized => sized) (fun _ _ _ => checked_error) fun vectors sized entry inside => ?_
  obtain ⟨osd, addresses⟩ := entry
  have within := inside.within
  rw [applyAddresses]
  rw [validateOSD_inside sized inside, except_bind_eq rfl, indexed_getD (by rwa [sized.state]) 0, except_bind_eq rfl,
    Crush.assigned_ok (by rwa [sized.state]), except_bind_eq rfl, Crush.assigned_ok (by rwa [sized.addresses]),
    except_bind_eq rfl]
  simp only [touch, put, entry, set_getD_self]
  rfl

end Steps

section Apply

variable {ranges ranges' : Ranges} {current : OSDMap} {incremental : OSDMapIncremental}

theorem sized_touch {size : Nat} : ∀ (vectors : OSDVectors) osd change, vectors.Sized size →
    (vectors.touch osd change).Sized size :=
  fun _ _ _ sized => sized.touch _ _

theorem Touches.after_foldlM {β : Type} {step : OSDVectors → Int × β → Except Fault OSDVectors}
    {change : Int × β → OSDEntry → OSDEntry} {size : Nat} (touches : Touches step change size (·.Sized size))
    {entries : List (Int × β)} {vectors after : OSDVectors} (sized : vectors.Sized size)
    (ran : entries.foldlM step vectors = .ok after) : after.Sized size :=
  foldlM_history (fun _ vectors => vectors.Sized size) (fun sized ran => touches.after sized_touch sized ran)
    [] sized ran

section Affinities

variable {maxOSD : Int} {vectors : OSDVectors} {entries others : List (Int × Nat)}

theorem full_touch {size : Nat} : ∀ (vectors : OSDVectors) osd change,
    vectors.Sized size ∧ vectors.primaryAffinity.length = size →
      (vectors.touch osd change).Sized size ∧ (vectors.touch osd change).primaryAffinity.length = size :=
  fun _ _ _ both => ⟨both.1.touch _ _, length_set.trans both.2⟩

theorem affinities_perm (sized : vectors.Sized maxOSD.toNat) (perm : entries.Perm others)
    (nodup : (entries.map Prod.fst).Nodup) :
    (entries.foldlM applyAffinity (createAffinity vectors maxOSD entries.length)).toOption =
      (others.foldlM applyAffinity (createAffinity vectors maxOSD others.length)).toOption := by
  rw [← perm.length_eq]
  obtain ⟨created, full⟩ := createAffinity_sized sized entries.length
  by_cases none : entries = []
  · subst none
    rw [nil_perm.mp perm]
  · exact applyAffinity_touches.foldlM_perm full_touch perm nodup ⟨created, full (length_pos_of_ne_nil none)⟩

theorem affinities_sized (sized : vectors.Sized maxOSD.toNat) {after : OSDVectors}
    (ran : entries.foldlM applyAffinity (createAffinity vectors maxOSD entries.length) = .ok after) :
    after.Sized maxOSD.toNat := by
  obtain ⟨created, full⟩ := createAffinity_sized sized entries.length
  by_cases none : entries = []
  · subst none
    cases ran
    exact created
  · have both := foldlM_history (fun _ (vectors : OSDVectors) => vectors.Sized maxOSD.toNat ∧
      vectors.primaryAffinity.length = maxOSD.toNat)
      (fun both ran => applyAffinity_touches.after full_touch both ran) []
      ⟨created, full (length_pos_of_ne_nil none)⟩ ran
    exact both.1

theorem affinities_ok_iff (sized : vectors.Sized maxOSD.toNat) :
    (∃ after, entries.foldlM applyAffinity (createAffinity vectors maxOSD entries.length) = .ok after) ↔
      ∀ entry ∈ entries, Inside maxOSD.toNat entry.1 := by
  obtain ⟨created, full⟩ := createAffinity_sized sized entries.length
  by_cases none : entries = []
  · subst none
    exact ⟨fun _ => by simp, fun _ => ⟨_, rfl⟩⟩
  · exact applyAffinity_touches.foldlM_ok_iff full_touch entries ⟨created, full (length_pos_of_ne_nil none)⟩

end Affinities

/-- The loops over the changes of OSDs, each in another order. -/
theorem applyVectors_perm (sized : current.Sized) (order : ranges.Of incremental) (order' : ranges'.Of incremental) :
    (applyVectors ranges current incremental).toOption = (applyVectors ranges' current incremental).toOption := by
  have start := startVectors_sized sized incremental
  refine toOption_bind (applyWeight_touches.foldlM_perm sized_touch (order.newWeight.perm order'.newWeight)
    order.newWeight.nodup start) fun weighted ran => ?_
  have sized := applyWeight_touches.after_foldlM start ran
  refine toOption_bind (affinities_perm sized (order.newPrimaryAffinity.perm order'.newPrimaryAffinity)
    order.newPrimaryAffinity.nodup) fun vectors ran => ?_
  have sized := affinities_sized sized ran
  refine toOption_bind (applyState_touches.foldlM_perm sized_touch (order.newState.perm order'.newState)
    order.newState.nodup sized) fun vectors ran => ?_
  have sized := applyState_touches.after_foldlM sized ran
  exact applyAddresses_touches.foldlM_perm sized_touch
    (order.newUpClient.perm order'.newUpClient) order.newUpClient.nodup sized

/-- All changes of OSDs are of OSDs of the map. -/
structure ChangesInside (current : OSDMap) (incremental : OSDMapIncremental) : Prop where
  weights : ∀ osd ∈ incremental.newWeight, Inside (nextMaxOSD current incremental).toNat osd
  affinities : ∀ osd ∈ incremental.newPrimaryAffinity, Inside (nextMaxOSD current incremental).toNat osd
  states : ∀ osd ∈ incremental.newState, Inside (nextMaxOSD current incremental).toNat osd
  addresses : ∀ osd ∈ incremental.newUpClient, Inside (nextMaxOSD current incremental).toNat osd

theorem applyVectors_ok_iff (sized : current.Sized) (order : ranges.Of incremental) :
    (∃ vectors, applyVectors ranges current incremental = .ok vectors) ↔ ChangesInside current incremental := by
  have start := startVectors_sized sized incremental
  have weights := applyWeight_touches.foldlM_ok_iff sized_touch ranges.newWeight start
  rw [order.newWeight.forall_key_iff] at weights
  constructor
  · rintro ⟨vectors, run⟩
    obtain ⟨weighted, ran, run⟩ := except_bind_ok run
    have sized := applyWeight_touches.after_foldlM start ran
    obtain ⟨valued, ran', run⟩ := except_bind_ok run
    have sized' := affinities_sized sized ran'
    obtain ⟨stated, ran'', run⟩ := except_bind_ok run
    have sized'' := applyState_touches.after_foldlM sized' ran''
    have affinities := (affinities_ok_iff sized).mp ⟨valued, ran'⟩
    have states := (applyState_touches.foldlM_ok_iff sized_touch _ sized').mp ⟨stated, ran''⟩
    have addresses := (applyAddresses_touches.foldlM_ok_iff sized_touch _ sized'').mp ⟨vectors, run⟩
    exact ⟨weights.mp ⟨weighted, ran⟩, order.newPrimaryAffinity.forall_key_iff.mp affinities,
      order.newState.forall_key_iff.mp states, order.newUpClient.forall_key_iff.mp addresses⟩
  · intro inside
    obtain ⟨weighted, ran⟩ := weights.mpr inside.weights
    have sized := applyWeight_touches.after_foldlM start ran
    obtain ⟨valued, ran'⟩ := (affinities_ok_iff sized).mpr
      (order.newPrimaryAffinity.forall_key_iff.mpr inside.affinities)
    have sized' := affinities_sized sized ran'
    obtain ⟨stated, ran''⟩ := (applyState_touches.foldlM_ok_iff sized_touch _ sized').mpr
      (order.newState.forall_key_iff.mpr inside.states)
    have sized'' := applyState_touches.after_foldlM sized' ran''
    obtain ⟨vectors, last⟩ := (applyAddresses_touches.foldlM_ok_iff sized_touch _ sized'').mpr
      (order.newUpClient.forall_key_iff.mpr inside.addresses)
    refine ⟨vectors, ?_⟩
    rw [applyVectors, except_bind_eq ran, except_bind_eq ran', except_bind_eq ran'']
    exact last

end Apply

end Vectors

end RadosGo.Maps
