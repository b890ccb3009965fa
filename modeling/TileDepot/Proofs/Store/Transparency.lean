import TileDepot.Proofs.Cache.Payloads
import TileDepot.Proofs.Depot.Requests
import TileDepot.Proofs.Store.Alone

/-!
# Caches cannot be told from their stores

A cache that reflects the store behind it goes on to do so, whatever the two are asked for: what a call changes in the store it
takes out of the cache, and what is put into the cache has just been read. So every answer is that of the store alone, and a
call that clears the cache makes no difference to those that follow.
-/

namespace TileDepot

/-- A call to clear a store. -/
def StoreCall.isClear : StoreCall → Bool
  | .clear => true
  | _ => false

namespace CacheAside

open Resident (alone unheard)

variable {α : Type}

/-- A run on a cache and a store that cannot be told from a run on the store alone, where the cache reflects the store. -/
def Transparent (run : Run (TileCache × Resident) α) (plain : Run Resident α) : Prop :=
  Resident.Imitates (fun (cache : TileCache) (store : Resident) => cache.Reflects store.tiles) run plain

/-! ## Tiles asked for -/

theorem onState_lookUp (cache : TileCache) (store : Resident) (key : TileKey) :
    (lookUp .first key).onState (cache, store) = (.ok (cache.payload? key), (cache.get key).2, store) := by
  rw [← cache.get_fst key]
  rfl

theorem onState_read (request : Tile) (cache : TileCache) (store : Resident) :
    (Resident.tileStore .second unheard (.get request)).onState (cache, store) =
      (.ok store.tiles[request.key]?, cache, { store with reads := store.reads + 1 }) :=
  Resident.onState_second (.get request) cache store

/-- A tile that is read from the store may be cached. -/
theorem transparent_load (request : Tile) :
    Transparent (load .first (Resident.tileStore .second unheard) request) (alone (.get request)) := by
  intro cache store h
  rw [load, Run.onState_bind_ok (onState_read request cache store), Resident.onState_get]
  cases hkey : store.tiles[request.key]? with
  | none => exact ⟨cache, { store with reads := store.reads + 1 }, rfl, rfl, h⟩
  | some payload => exact ⟨_, { store with reads := store.reads + 1 }, rfl, rfl, h.put hkey⟩

/-- A tile that is cached need not be read. -/
theorem transparent_lookUp {request : Tile} {next : Run (TileCache × Resident) (Option Payload)}
    (hnext : Transparent next (alone (.get request))) :
    Transparent (do
      match ← lookUp .first request.key with
      | some payload => return some payload
      | none => next) (alone (.get request)) := by
  intro cache store h
  rw [Run.onState_bind_ok (onState_lookUp cache store request.key)]
  cases hkey : cache.payload? request.key with
  | none => exact hnext _ store (h.get request.key)
  | some payload =>
    refine ⟨(cache.get request.key).2, store, ?_, Resident.sameButReads_read store _, h.get request.key⟩
    rw [Resident.onState_get, h request.key payload hkey]
    rfl

theorem transparent_lookUpOrLoad (request : Tile) :
    Transparent (lookUpOrLoad .first (Resident.tileStore .second unheard) request) (alone (.get request)) :=
  transparent_lookUp (transparent_load request)

/-- Whether the lock of a tile can be had or not makes no difference. -/
theorem transparent_loadLocked (plan : LockPlan) (request : Tile) :
    Transparent (loadLocked .first (plan.locks DepotPlan.unheld) (Resident.tileStore .second unheard) request)
      (alone (.get request)) := by
  intro cache store h
  rw [loadLocked, Run.onState_bind_ok (Run.onState_attempt _ _), plan.onState_acquire_unheld]
  split
  · exact transparent_load request cache store h
  · obtain ⟨cache', store', hrun, hsame, hreflects⟩ := transparent_lookUpOrLoad request cache store h
    refine ⟨cache', store', ?_, hsame, hreflects⟩
    rw [Run.onState_bind_ok (Run.onState_attempt _ _), hrun, Run.onState_bind_ok (Run.onState_ignoringFailure _ _),
      plan.onState_release]
    rfl

theorem transparent_get (locks : Option LockPlan) (request : Tile) :
    Transparent (get .first (locks.map (·.locks DepotPlan.unheld)) (Resident.tileStore .second unheard) request)
      (alone (.get request)) := by
  refine transparent_lookUp ?_
  cases locks with
  | none => exact transparent_load request
  | some plan => exact transparent_loadLocked plan request

/-! ## Changes -/

theorem transparent_put (tile : Tile) :
    Transparent (put .first (Resident.tileStore .second unheard) tile) (alone (.put tile)) := by
  intro cache store h
  have hput := Resident.onState_second (.put tile) cache store
  have hstore := Resident.onState_put store tile
  cases hpayload : tile.payload? with
  | none =>
    rw [hpayload] at hstore
    rw [hstore] at hput ⊢
    exact ⟨cache, store, Run.onState_bind_error hput, .refl store, h⟩
  | some payload =>
    refine ⟨(cache.remove tile.key).2, ((alone (.put tile)).onState store).2, ?_, .refl _, ?_⟩
    · rw [hpayload] at hstore
      rw [hstore] at hput ⊢
      exact Run.onState_bind_ok hput
    · exact h.forget (TileCache.forgets_remove tile.key) fun key payload hne hkey => store.alone_keeps hne hkey

/-- A call before and after which the tiles are dropped that it concerns. -/
theorem transparent_dropping {call : StoreCall} {drop : TileCache → TileCache} (hdrop : TileCache.Forgets call.concerns drop) :
    Transparent (dropping .first drop (Resident.tileStore .second unheard call)) (alone call) := by
  intro cache store h
  refine ⟨drop (drop cache), ((alone call).onState store).2, ?_, .refl _, ?_⟩
  · have hcall := Resident.onState_second call (drop cache) store
    change (dropping .first drop _).onState _ = _
    rw [dropping, Run.onState_bind_ok (Run.onState_cell _ _ _)]
    change (Run.attempt (Resident.tileStore .second unheard call) >>= _).onState (drop cache, store) = _
    rw [Run.onState_bind_ok (Run.onState_attempt _ _), hcall]
    rfl
  · have hfirst : (drop cache).Reflects ((alone call).onState store).2.tiles :=
      h.forget hdrop fun key payload hconcerns hkey => store.alone_keeps hconcerns hkey
    exact hfirst.forget hdrop fun _ _ _ hkey => hkey

/-- A call that changes no tiles is handed on to the store. -/
theorem transparent_handedOn {call : StoreCall} (hcall : ∀ key, call.concerns key = false) :
    Transparent (Resident.tileStore .second unheard call) (alone call) := by
  intro cache store h
  exact ⟨cache, ((alone call).onState store).2, Resident.onState_second call cache store, .refl _,
    fun key payload hkey => store.alone_keeps (hcall key) (h key payload hkey)⟩

/-- Every call but one that clears the cache is answered as by the store alone. -/
theorem transparent (locks : Option LockPlan) {call : StoreCall} (hcall : call.isClear = false) :
    Transparent
      (tileStore .first (locks.map (·.locks DepotPlan.unheld)) (Resident.tileStore .second unheard) call) (alone call) := by
  cases call with
  | get request => exact transparent_get locks request
  | put tile => exact transparent_put tile
  | delete key => exact transparent_dropping (TileCache.forgets_remove key)
  | deleteRange range => exact transparent_dropping (TileCache.forgets_removeWhere _)
  | deleteLayer layer => exact transparent_dropping (TileCache.forgets_removeWhere _)
  | deleteGridset layer gridset => exact transparent_dropping (TileCache.forgets_removeWhere _)
  | deleteParameters layer parameters => exact transparent_dropping (TileCache.forgets_removeWhere _)
  | rename layer target => exact transparent_dropping (TileCache.forgets_removeWhere _)
  | layerExists | parametersOf | metadata | putMetadata | addListener | removeListener =>
    exact transparent_handedOn fun _ => rfl
  | clear => cases hcall

/-- A call that clears the cache leaves the store alone. -/
theorem onState_clear {call : StoreCall} (hcall : call.isClear = true) (locks : Option LockPlan) (cache : TileCache)
    (store : Resident) :
    ((tileStore .first (locks.map (·.locks DepotPlan.unheld)) (Resident.tileStore .second unheard) call).onState
      (cache, store)).2 = (cache.clear, store) := by
  cases call with
  | clear => rfl
  | _ => cases hcall

/-- Calls of a cache and a store give the outcomes that the store alone would give, to clear the cache apart. -/
theorem serve_transparent (locks : Option LockPlan) (calls : List StoreCall) {cache : TileCache} {store : Resident}
    (h : cache.Reflects store.tiles) :
    let served := (tileStore .first (locks.map (·.locks DepotPlan.unheld)) (Resident.tileStore .second unheard)).serve calls
      (cache, store)
    served.1.filter (!·.call.isClear) = (alone.serve (calls.filter (!·.isClear)) store).1 ∧
      served.2.1.Reflects served.2.2.tiles := by
  refine Resident.serve_imitates calls (fun call _ hcall => transparent locks hcall) (fun call _ hcall cache store _ => ?_)
    cache store store h (.refl store)
  exact ⟨cache.clear, onState_clear hcall locks cache store, cache.reflects_clear store.tiles⟩

end CacheAside

namespace Depot

/-- A cache that was empty at first cannot be told from the store behind it. Of any calls, all but those to clear the cache
have the outcomes, with the tiles as they are filled, that they have with the store alone, where it is never cleared; and
every payload in the cache is the one in the store. -/
theorem cached_store_transparent (name backing : String) (settings : CacheSettings) (locks : Option LockPlan) (depot : Depot)
    (hempty : (cacheCell name).read depot = TileCache.empty settings) (calls : List StoreCall) :
    let cached := (StoreTree.cached name settings locks (.resident backing)).tileStore .whole DepotPlan.unheld
    let plain := (StoreTree.resident backing).tileStore .whole DepotPlan.unheld
    let served := cached.serve calls depot
    served.1.filter (!·.call.isClear) = (plain.serve (calls.filter (!·.isClear)) depot).1 ∧
      ∀ (key : TileKey) (tile : CachedTile), ((cacheCell name).read served.2).entries[key]? = some tile →
        ((residentCell backing).read served.2).tiles[key]? = some tile.payload := by
  intro cached plain served
  have hreflects : ((cacheCell name).read depot).Reflects ((residentCell backing).read depot).tiles := by
    rw [hempty]
    exact TileCache.reflects_empty settings _
  have hserved := CacheAside.serve_transparent locks calls hreflects
  have hcached := (cached_projects name backing settings locks).serve calls depot
  have hplain := (resident_projects backing).serve (calls.filter (!·.isClear)) depot
  rw [show ((cacheCell name).read depot, (residentCell backing).read depot) = cacheView name backing depot from rfl,
    hcached] at hserved
  obtain ⟨houtcomes, hafter⟩ := hserved
  refine ⟨houtcomes.trans (congrArg Prod.fst hplain), fun key tile hkey => hafter key tile.payload ?_⟩
  exact congrArg (Option.map CachedTile.payload) hkey

/-- A tile is asked for, replaced and asked for again; its layer is moved, and it is asked for under both names; then the
cache is cleared, and it is asked for once more. Every time it is filled with what was put last. -/
theorem cached_store_transparent_after_rename :
    let tree : StoreTree := .cached "cache" Settings.defaultCache none (.resident "tiles")
    let depot := DepotPlan.opened ⟨tree, none, ⟨false, none, []⟩, .reliable⟩ (.atMinutes 5) Sample.table none
    let calls := [.put (Sample.tile "roads" 1 2 5), .get (Sample.request "roads" 1 2), .put (Sample.tile "roads" 1 2 7),
      .get (Sample.request "roads" 1 2), .rename "roads" "streets", .get (Sample.request "roads" 1 2),
      .get (Sample.request "streets" 1 2), .clear, .get (Sample.request "streets" 1 2)]
    let served := (tree.tileStore .whole DepotPlan.unheld).serve calls depot
    (cacheCell "cache").read depot = TileCache.empty Settings.defaultCache ∧
      ((served.1.filter (!·.call.isClear)).filterMap Outcome.tile).map Tile.size = [5, 7, 0, 7, 7] := by
  intro tree depot calls served
  have hempty : (cacheCell "cache").read depot = TileCache.empty Settings.defaultCache := rfl
  refine ⟨hempty, ?_⟩
  rw [(cached_store_transparent "cache" "tiles" Settings.defaultCache none depot hempty calls).1]
  decide +kernel

end Depot

end TileDepot
