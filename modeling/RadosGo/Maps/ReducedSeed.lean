import RadosGo.Crush.StableMod
import RadosGo.Maps.Placed

namespace RadosGo.Maps

/-- A placement with another hash that it was asked for. -/
def ObjectPlacement.askedFor (placement : ObjectPlacement) (hash : UInt32) (rawPG : PG) : ObjectPlacement :=
  { placement with rawHash := hash, rawPG }

namespace OSDMap

variable {osdMap : OSDMap} {poolID : Int} {hash seed : UInt32} {rawPG : PG} {placement : ObjectPlacement}
    {pool : Pool}

/-- What is computed from CRUSH on depends on the PG and the placement seed only. -/
theorem placeRaw_askedFor (raw : List Int) :
    osdMap.placeRaw pool (placement.askedFor hash rawPG) raw =
      (·.askedFor hash rawPG) <$> osdMap.placeRaw pool placement raw := by
  unfold placeRaw
  simp only [map_bind]
  refine bind_congr fun _ => bind_congr fun mapped => bind_congr fun up => bind_congr ?_
  rintro ⟨up, upPrimary⟩
  refine bind_congr ?_
  rintro ⟨acting, actingPrimary⟩
  dsimp only
  split
  · rw [map_bind]
    refine bind_congr fun shard => ?_
    split <;> rfl
  · rfl

theorem placeMapped_askedFor (crush : Except GoError Crush.PlacementMap) (fuel : Nat) :
    osdMap.placeMapped crush fuel poolID (placement.askedFor hash rawPG) =
      (osdMap.placeMapped crush fuel poolID placement).map ((·.askedFor hash rawPG) <$> ·) := by
  unfold placeMapped
  split
  · rfl
  · split
    · rfl
    · split
      · rfl
      · split
        · rfl
        · dsimp only [ObjectPlacement.askedFor]
          split
          · rfl
          · rfl
          · rfl
          · exact congrArg some (placeRaw_askedFor _)

/-- What it takes to map a hash, for every hash. -/
theorem mapRawHash_ok (mapped : osdMap.mapRawHash poolID hash = .ok placement) :
    ∃ pool, osdMap.pools.lookup poolID = some pool ∧ 0 < pool.placementPGCount ∧
      pool.placementPGCount ≤ pool.pgCount ∧
      ∀ other, osdMap.mapRawHash poolID other = .ok {
        rawHash := other
        rawPG := ⟨poolID.toNat, other.toNat, -1⟩
        pg := ⟨poolID.toNat, (stableMod other (UInt32.ofNat pool.pgCount)).toNat, -1⟩
        placementSeed := hash32Pair (stableMod other (UInt32.ofNat pool.placementPGCount))
          (Crush.toUint32 poolID) } := by
  revert mapped
  fun_cases osdMap.mapRawHash poolID hash
  all_goals rintro ⟨⟩
  next positive pool isPool isHash hashed geometry _ _ =>
    refine ⟨pool, isPool, by omega, by omega, fun other => ?_⟩
    unfold mapRawHash
    rw [if_neg positive, isPool]
    dsimp only
    rw [if_neg isHash, if_neg hashed, if_neg geometry]

/-- The seed of the PG is placed as the hash is. -/
theorem mapRawHash_reduced (mapped : osdMap.mapRawHash poolID hash = .ok placement)
    (fits : ∀ pool, osdMap.pools.lookup poolID = some pool → pool.pgCount < 2 ^ 32) :
    osdMap.mapRawHash poolID (UInt32.ofNat placement.pg.seed) =
      .ok (placement.askedFor (UInt32.ofNat placement.pg.seed) placement.pg) := by
  obtain ⟨pool, isPool, positive, grows, maps⟩ := mapRawHash_ok mapped
  have bound := fits pool isPool
  have placementCount : (UInt32.ofNat pool.placementPGCount).toNat = pool.placementPGCount :=
    UInt32.toNat_ofNat_of_lt' (grows.trans_lt bound)
  have count : (UInt32.ofNat pool.pgCount).toNat = pool.pgCount := UInt32.toNat_ofNat_of_lt' bound
  have positive' : 0 < UInt32.ofNat pool.placementPGCount := by
    rw [UInt32.lt_iff_toNat_lt, placementCount]
    exact positive
  have grows' : UInt32.ofNat pool.placementPGCount ≤ UInt32.ofNat pool.pgCount := by
    rw [UInt32.le_iff_toNat_le, placementCount, count]
    exact grows
  cases (maps hash).symm.trans mapped
  dsimp only [ObjectPlacement.askedFor]
  rw [UInt32.ofNat_toNat, maps, stableMod_stableMod positive' grows',
    stableMod_stableMod (UInt32.lt_of_lt_of_le positive' grows') (UInt32.le_refl _)]

/-- A PG is placed by its seed as every hash that it stands for. Seeds are below the count, a smaller count sees the
same of a reduced value, and a larger one moves values to new PGs only. -/
theorem placeRawHash_reduced :
    (∀ value count larger : UInt32, 0 < count → count ≤ larger → stableMod value count < count ∧
      stableMod (stableMod value larger) count = stableMod value count ∧
      (stableMod value larger = stableMod value count ∨ count ≤ stableMod value larger)) ∧
    ∀ (osdMap : OSDMap) (crush : Except GoError Crush.PlacementMap) (fuel : Nat) (poolID : Int) (hash : UInt32)
      (placement : ObjectPlacement), osdMap.mapRawHash poolID hash = .ok placement →
      (∀ pool, osdMap.pools.lookup poolID = some pool → pool.pgCount < 2 ^ 32) →
      osdMap.placeRawHash crush fuel poolID (UInt32.ofNat placement.pg.seed) =
        (osdMap.placeRawHash crush fuel poolID hash).map
          ((·.askedFor (UInt32.ofNat placement.pg.seed) placement.pg) <$> ·) := by
  refine ⟨fun value count larger positive grows =>
    ⟨stableMod_lt positive, stableMod_stableMod positive grows, stableMod_eq_or_le positive grows⟩, ?_⟩
  intro osdMap crush fuel poolID hash placement mapped fits
  unfold placeRawHash
  rw [mapRawHash_reduced mapped fits, mapped]
  exact placeMapped_askedFor crush fuel

def twelvePGsMap : OSDMap :=
  { twoPoolsMap with pools := Finmap.singleton 1 { samplePool 1 [97] with pgCount := 12, placementPGCount := 10 } }

/-- The hash 29 ends with 13, which is no PG. -/
theorem placeRawHash_reduced_twelvePGs :
    twelvePGsMap.placeRawHash (decodeCrush GoMap.anyOrder GoMap.anyOrder twelvePGsMap.crushData) 100 1 5 =
      (twelvePGsMap.placeRawHash (decodeCrush GoMap.anyOrder GoMap.anyOrder twelvePGsMap.crushData) 100 1 29).map
        ((·.askedFor 5 ⟨1, 5, -1⟩) <$> ·) := by
  have mapped : twelvePGsMap.mapRawHash 1 29 =
      .ok { rawHash := 29, rawPG := ⟨1, 29, -1⟩, pg := ⟨1, 5, -1⟩, placementSeed := hash32Pair 5 1 } := by
    decide +kernel
  have reduced := placeRawHash_reduced.2 twelvePGsMap
    (decodeCrush GoMap.anyOrder GoMap.anyOrder twelvePGsMap.crushData) 100
    1 29 _ mapped ?_
  · exact reduced
  · intro pool found
    have isPool : twelvePGsMap.pools.lookup 1 =
      some { samplePool 1 [97] with pgCount := 12, placementPGCount := 10 } := by
      decide +kernel
    cases isPool.symm.trans found
    decide

end OSDMap

end RadosGo.Maps
