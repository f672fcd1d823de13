import BeamSdk.Batch.Compact

/-! What the batch of an encoder comes to, and what can be read back from it. -/

namespace Beam.Batch
open Interning

def sameHeaders : Option Headers → Option Headers → Prop
  | none, none => True
  | some headers, some headers' => headers.Same headers'
  | _, _ => False

structure SameSource (route route' : SignedChunkRoute) : Prop where
  sourceID : route.sourceID = route'.sourceID
  chunkIndex : route.chunkIndex = route'.chunkIndex
  sourceURL : route.sourceURL = route'.sourceURL
  sourceOffset : route.sourceOffset = route'.sourceOffset
  chunkSize : route.chunkSize = route'.chunkSize
  expiresAt : route.expiresAt.get = route'.expiresAt.get
  headers : sameHeaders route.headers.get route'.headers.get

namespace SignedChunkRoute
variable (route : SignedChunkRoute)

def groupID : Option String :=
  match route.member "multipart_group_id" with
  | some (.string text) => if text = "" then none else some text
  | _ => none

def index (place : ℕ) : ℕ :=
  match route.deliveryIndex with
  | .value n => n
  | _ =>
    match route.member "delivery_index" with
    | some (.number value) => (natural value).getD place
    | _ => place

def keptMetadata : Metadata :=
  let kept := withoutIdentity (route.metadata.get.getD [])
  if route.groupID = none then kept else attemptOnly kept

end SignedChunkRoute

structure GivesBack (place : ℕ) (route : SignedChunkRoute) (expanded : ExpandedRoute) : Prop where
  sourceID : expanded.source.sourceID = route.sourceID
  chunkIndex : expanded.source.chunkIndex = route.chunkIndex
  sourceURL : expanded.source.sourceURL = route.sourceURL
  sourceOffset : expanded.source.sourceOffset = route.sourceOffset
  chunkSize : expanded.source.chunkSize = route.chunkSize
  headers : sameHeaders expanded.source.headers.get route.headers.get
  sourceExpiresAt : expanded.source.expiresAt.get = route.expiresAt.get
  expiresAt : expanded.route.expiresAt.get = route.expiresAt.get
  destinationID : expanded.route.destinationID = route.destinationID
  destURL : expanded.route.destURL = route.destURL
  destHeaders : expanded.route.destHeaders.get = route.destHeaders.get
  deliveryIndex : expanded.route.deliveryIndex = index (route.index place)
  multipartGroupID : expanded.route.multipartGroupID = route.groupID
  metadata : expanded.route.metadata.getD [] = route.keptMetadata

def Lossless (routes : List SignedChunkRoute) (batch : CompactSignedRouteBatch) : Prop :=
  ∃ expanded, batch.expand = some expanded ∧ expanded.length = routes.length ∧
    ∀ place route, routes[place]? = some route → ∃ x, expanded[place]? = some x ∧
      GivesBack place route x

def Shares (routes : List SignedChunkRoute) (batch : CompactSignedRouteBatch) : Prop :=
  ∀ (i j : ℕ) route route' (compact compact' : CompactRoute), routes[i]? = some route →
    routes[j]? = some route' →
    batch.routes[i]? = some compact → batch.routes[j]? = some compact' →
      (compact.sourceRef = compact'.sourceRef ↔ SameSource route route')

def InOrder (batch : CompactSignedRouteBatch) : Prop :=
  batch.sourceChunks.map SourceChunk.sourceRef = List.range batch.sourceChunks.length ∧
    firstUses id (batch.routes.map CompactRoute.sourceRef) = List.range batch.sourceChunks.length

namespace Encoder
variable {e e' : Encoder} {routes : List SignedChunkRoute} {batch batch' : CompactSignedRouteBatch}

structure Encodes (e : Encoder) (routes : List SignedChunkRoute)
    (batch : CompactSignedRouteBatch) : Prop where
  chunks : batch.sourceChunks = (firstUses e.sourceKey routes).mapIdx e.sourceChunk
  length : batch.routes.length = routes.length
  routes : ∀ place route, routes[place]? = some route →
    ∃ compact, batch.routes[place]? = some compact ∧
    e.compactRoute (ref e.sourceKey routes (e.sourceKey route)) place route = some compact

structure Reached (e : Encoder) (routes : List SignedChunkRoute) (state : State) : Prop where
  chunks : state.sourceChunks = (firstUses e.sourceKey routes).mapIdx e.sourceChunk
  refs : ∀ k, state.sourceRefs.get k = if k ∈ routes.map e.sourceKey then
    some (ref e.sourceKey routes k) else none
  length : state.routes.length = routes.length
  routes : ∀ place route, routes[place]? = some route →
    ∃ compact, state.routes[place]? = some compact ∧
    e.compactRoute (ref e.sourceKey routes (e.sourceKey route)) place route = some compact

theorem refer_spec {state : State} (h : e.Reached routes state) (route : SignedChunkRoute) :
    (e.refer state route).1 = ref e.sourceKey (routes ++ [route]) (e.sourceKey route) ∧
      (e.refer state route).2.sourceChunks =
        (firstUses e.sourceKey (routes ++ [route])).mapIdx e.sourceChunk ∧
      (∀ k, (e.refer state route).2.sourceRefs.get k =
        if k ∈ (routes ++ [route]).map e.sourceKey then some (ref e.sourceKey (routes ++ [route]) k)
          else none) ∧
      (e.refer state route).2.routes = state.routes := by
  have hfound := h.refs (e.sourceKey route)
  by_cases hmem : e.sourceKey route ∈ routes.map e.sourceKey
  · rw [if_pos hmem] at hfound
    have hsame : firstUses e.sourceKey (routes ++ [route]) = firstUses e.sourceKey routes := by
      rw [firstUses_snoc, use_of_mem (mem_keys.mpr hmem)]
    rw [refer, hfound]
    refine ⟨(ref_append hmem).symm, by rw [hsame, h.chunks], fun k => ?_, rfl⟩
    rw [h.refs k]
    by_cases hk : k ∈ routes.map e.sourceKey
    · rw [if_pos hk, if_pos (by rw [List.map_append]; exact List.mem_append_left _ hk),
        ref_append hk]
    · rw [if_neg hk, if_neg]
      rw [List.map_append, List.mem_append, not_or]
      refine ⟨hk, fun hlast => hk ?_⟩
      rw [List.mem_singleton.mp hlast]
      exact hmem
  · rw [if_neg hmem] at hfound
    have hnew : firstUses e.sourceKey (routes ++ [route]) = firstUses e.sourceKey routes ++
        [route] := by
      rw [firstUses_snoc, use_of_not_mem fun hin => hmem (mem_keys.mp hin)]
    have hlength : state.sourceChunks.length = (firstUses e.sourceKey routes).length := by
      rw [h.chunks, List.length_mapIdx]
    rw [refer, hfound]
    refine ⟨hlength.trans (ref_new hmem).symm, ?_, fun k => ?_, rfl⟩
    · rw [hnew, List.mapIdx_concat, ← h.chunks, ← hlength]
    · dsimp only
      by_cases hk : k = e.sourceKey route
      · rw [hk, OrderedMap.get_set_self, if_pos (by simp), hlength, ref_new hmem]
      · rw [OrderedMap.get_set_of_ne _ hk, h.refs k]
        by_cases hin : k ∈ routes.map e.sourceKey
        · rw [if_pos hin, if_pos (by rw [List.map_append]; exact List.mem_append_left _ hin),
            ref_append hin]
        · rw [if_neg hin, if_neg]
          rw [List.map_append, List.mem_append, not_or]
          exact ⟨hin, fun hlast => hk (List.mem_singleton.mp hlast)⟩

theorem add_eq (state : State) (route : SignedChunkRoute) (place : ℕ) :
    e.add state (route, place) =
      (e.compactRoute (e.refer state route).1 place route).map fun compact =>
      { (e.refer state route).2 with routes := (e.refer state route).2.routes ++ [compact] } := rfl

theorem reached_of_fold {state : State} (h : routes.zipIdx.foldlM e.add ⟨[], [], []⟩ = some state) :
    e.Reached routes state := by
  induction routes using List.reverseRecOn generalizing state with
  | nil =>
    cases h
    exact ⟨rfl, fun _ => rfl, rfl, fun _ _ hroute => by cases hroute⟩
  | append_singleton routes route ih =>
    rw [List.zipIdx_append, List.foldlM_append] at h
    obtain ⟨before, hbefore, h⟩ := Option.bind_eq_some_iff.mp h
    obtain ⟨added, hadded, h⟩ := Option.bind_eq_some_iff.mp h
    cases h
    have hreached := ih hbefore
    rw [add_eq, Nat.zero_add] at hadded
    obtain ⟨compact, hcompact, rfl⟩ := Option.map_eq_some_iff.mp hadded
    obtain ⟨href, hchunks, hrefs, hroutes⟩ := refer_spec hreached route
    refine ⟨hchunks, hrefs, ?_, fun place other hother => ?_⟩
    · dsimp only
      rw [hroutes, List.length_append, List.length_append, hreached.length]
      rfl
    · dsimp only
      rw [hroutes]
      rcases Nat.lt_or_ge place routes.length with hlt | hge
      · rw [List.getElem?_append_left hlt] at hother
        obtain ⟨kept, hkept, hencoded⟩ := hreached.routes place other hother
        rw [List.getElem?_append_left (hreached.length ▸ hlt),
          ref_append (List.mem_map_of_mem (List.mem_of_getElem? hother))]
        exact ⟨kept, hkept, hencoded⟩
      · rw [List.getElem?_append_right hge] at hother
        obtain ⟨hplace, rfl⟩ : place = routes.length ∧ route = other := by
          obtain ⟨hlt, hentry⟩ := List.getElem?_eq_some_iff.mp hother
          rw [List.length_singleton] at hlt
          exact ⟨by omega, by simpa using hentry⟩
        rw [hplace, ← hreached.length, List.getElem?_concat_length]
        refine ⟨compact, rfl, ?_⟩
        rw [← href, hreached.length]
        exact hcompact

theorem encodes_of_compact (h : e.compactSignedRoutes routes = some batch) :
    e.Encodes routes batch := by
  obtain ⟨state, hstate, rfl⟩ := Option.map_eq_some_iff.mp h
  have hreached := reached_of_fold hstate
  exact ⟨hreached.chunks, hreached.length, hreached.routes⟩

theorem Encodes.unique (h : e.Encodes routes batch) (h' : e.Encodes routes batch') :
    batch = batch' := by
  have hroutes : batch.routes = batch'.routes := by
    refine List.ext_getElem? fun place => ?_
    cases hroute : routes[place]? with
    | none =>
      have hge := List.getElem?_eq_none_iff.mp hroute
      rw [List.getElem?_eq_none (h.length ▸ hge), List.getElem?_eq_none (h'.length ▸ hge)]
    | some route =>
      obtain ⟨compact, hcompact, hencoded⟩ := h.routes place route hroute
      obtain ⟨compact', hcompact', hencoded'⟩ := h'.routes place route hroute
      rw [hcompact, hcompact', ← hencoded, ← hencoded']
  cases batch
  cases batch'
  simp only [CompactSignedRouteBatch.mk.injEq]
  exact ⟨h.chunks.trans h'.chunks.symm, hroutes⟩

theorem isSome_compactRoute (place : ℕ) (route : SignedChunkRoute) (n m : ℕ) :
    (e.compactRoute n place route).isSome = (e.compactRoute m place route).isSome := by
  rw [compactRoute, compactRoute, Option.isSome_map, Option.isSome_map]

theorem isSome_fold (h : ∀ place route, routes[place]? = some route →
    (e.compactRoute 0 place route).isSome) :
    (routes.zipIdx.foldlM e.add ⟨[], [], []⟩).isSome := by
  induction routes using List.reverseRecOn with
  | nil => rfl
  | append_singleton routes route ih =>
    have hbefore := ih fun place other hother => h place other (by
      rw [List.getElem?_append_left (List.getElem?_eq_some_iff.mp hother).1]
      exact hother)
    obtain ⟨state, hstate⟩ := Option.isSome_iff_exists.mp hbefore
    have hlast := h routes.length route List.getElem?_concat_length
    rw [isSome_compactRoute (m := (e.refer state route).1)] at hlast
    rw [List.zipIdx_append, List.foldlM_append, hstate]
    have hadded : (e.add state (route, routes.length)).isSome := by
      rw [add_eq, Option.isSome_map]
      exact hlast
    obtain ⟨added, hadded⟩ := Option.isSome_iff_exists.mp hadded
    rw [Nat.zero_add]
    refine Option.isSome_iff_exists.mpr ⟨added, ?_⟩
    exact Option.bind_eq_some_iff.mpr ⟨state, rfl, Option.bind_eq_some_iff.mpr ⟨added, hadded, rfl⟩⟩

theorem compact_eq_some : e.compactSignedRoutes routes = some batch ↔ e.Encodes routes batch := by
  refine ⟨encodes_of_compact, fun h => ?_⟩
  have hsome : (routes.zipIdx.foldlM e.add ⟨[], [], []⟩).isSome := by
    refine isSome_fold fun place route hroute => ?_
    obtain ⟨compact, -, hencoded⟩ := h.routes place route hroute
    rw [isSome_compactRoute (m := ref e.sourceKey routes (e.sourceKey route)), hencoded]
    rfl
  obtain ⟨state, hstate⟩ := Option.isSome_iff_exists.mp hsome
  have hcompact : e.compactSignedRoutes routes = some ⟨state.sourceChunks, state.routes⟩ := by
    rw [compactSignedRoutes, hstate]
    rfl
  rw [hcompact, h.unique (encodes_of_compact hcompact)]

theorem Encodes.of_like (h : e.Encodes routes batch)
    (hkeys : ∀ route ∈ routes, ∀ route' ∈ routes,
      e.sourceKey route = e.sourceKey route' ↔ e'.sourceKey route = e'.sourceKey route')
    (hchunks : ∀ route ∈ firstUses e.sourceKey routes, ∀ n,
      e'.sourceChunk n route = e.sourceChunk n route)
    (hroutes : ∀ route ∈ routes, ∀ n place,
      e'.compactRoute n place route = e.compactRoute n place route) :
    e'.Encodes routes batch := by
  refine ⟨?_, h.length, fun place route hroute => ?_⟩
  · rw [h.chunks, ← firstUses_congr hkeys]
    refine List.ext_getElem? fun n => ?_
    rw [List.getElem?_mapIdx, List.getElem?_mapIdx]
    cases hfirst : (firstUses e.sourceKey routes)[n]? with
    | none => rfl
    | some route =>
        rw [Option.map_some, Option.map_some, hchunks route (List.mem_of_getElem? hfirst)]
  · have hmem := List.mem_of_getElem? hroute
    rw [← ref_congr hkeys hmem, hroutes route hmem]
    exact h.routes place route hroute

theorem mapM_entries {α β : Type} {f : α → Option β} {xs : List α} (h : ∀ x ∈ xs, (f x).isSome) :
    ∃ ys, xs.mapM f = some ys ∧ ys.length = xs.length ∧ ∀ i : ℕ, ∀ x, xs[i]? = some x →
      ∃ y, ys[i]? = some y ∧ f x = some y := by
  induction xs with
  | nil => exact ⟨[], rfl, rfl, fun _ _ hx => by cases hx⟩
  | cons x xs ih =>
    obtain ⟨y, hy⟩ := Option.isSome_iff_exists.mp (h x (List.mem_cons_self ..))
    obtain ⟨ys, hys, hlength, hentries⟩ := ih fun x hx => h x (List.mem_cons_of_mem _ hx)
    refine ⟨y :: ys, ?_, congrArg Nat.succ hlength, fun i z hz => ?_⟩
    · rw [List.mapM_cons, hy, hys]
      rfl
    · cases i with
      | zero =>
        cases hz
        exact ⟨y, rfl, hy⟩
      | succ i => exact hentries i z hz

theorem withoutIdentity_get (metadata : Metadata) {name : String}
    (hname : name ∉ routeIdentityMetadataKeys) :
    (withoutIdentity metadata).get name = metadata.get name := by
  induction metadata with
  | nil => rfl
  | cons entry metadata ih =>
    obtain ⟨key, value⟩ := entry
    by_cases hkey : key ∈ routeIdentityMetadataKeys
    · have hne : key ≠ name := fun hsame => hname (hsame ▸ hkey)
      rw [withoutIdentity, List.filter_cons_of_neg (by simpa using hkey),
        OrderedMap.get, if_neg hne]
      exact ih
    · rw [withoutIdentity, List.filter_cons_of_pos (by simpa using hkey), OrderedMap.get,
        OrderedMap.get]
      split
      · rfl
      · exact ih

structure Entry (e : Encoder) (n place : ℕ) (route : SignedChunkRoute)
    (compact : CompactRoute) : Prop where
  sourceRef : compact.sourceRef = n
  destinationID : compact.destinationID = route.destinationID
  destURL : compact.destURL = route.destURL
  deliveryIndex : e.deliveryIndex place route.deliveryIndex (route.metadata.get.getD []) =
    some compact.deliveryIndex
  expiresAt : compact.expiresAt = e.sentText route.expiresAt
  destHeaders : compact.destHeaders = e.sentHeaders route.destHeaders
  multipartGroupID : compact.multipartGroupID = e.groupID (route.member "multipart_group_id")
  metadata : compact.metadata.getD [] =
    if (e.groupID (route.member "multipart_group_id")).getD "" =
      "" then withoutIdentity (route.metadata.get.getD [])
    else attemptOnly (withoutIdentity (route.metadata.get.getD []))

theorem entry_of_compactRoute {n place : ℕ} {route : SignedChunkRoute} {compact : CompactRoute}
    (h : e.compactRoute n place route = some compact) : e.Entry n place route compact := by
  have hmember : (withoutIdentity (route.metadata.get.getD [])).get "multipart_group_id" =
      route.member "multipart_group_id" := withoutIdentity_get _ (by decide)
  obtain ⟨deliveryIndex, hindex, rfl⟩ := Option.map_eq_some_iff.mp h
  refine ⟨rfl, rfl, rfl, hindex, rfl, rfl, congrArg e.groupID hmember, ?_⟩
  dsimp only
  rw [hmember]
  split
  all_goals
    split
    · rename_i hempty
      exact hempty.symm
    · rfl

theorem find?_sourceRef (firsts : List SignedChunkRoute) (n : ℕ) :
    ((firsts.mapIdx e.sourceChunk).find? fun source => source.sourceRef = n) =
      (firsts[n]?).map (e.sourceChunk n) := by
  cases hfirst : firsts[n]? with
  | none =>
    rw [Option.map_none, List.find?_eq_none]
    intro source hsource hn
    obtain ⟨i, hi, rfl⟩ := List.mem_mapIdx.mp hsource
    obtain rfl : i = n := of_decide_eq_true hn
    rw [List.getElem?_eq_getElem hi] at hfirst
    cases hfirst
  | some route =>
    obtain ⟨hlt, hentry⟩ := List.getElem?_eq_some_iff.mp hfirst
    rw [Option.map_some, List.find?_eq_some_iff_getElem]
    refine ⟨by simp [sourceChunk], n, by rw [List.length_mapIdx]; exact hlt, ?_, fun j hj => ?_⟩
    · rw [List.getElem_mapIdx, hentry]
    · rw [List.getElem_mapIdx]
      have hne : ¬ (e.sourceChunk j firsts[j]).sourceRef = n := Nat.ne_of_lt hj
      rw [decide_eq_false hne]
      rfl

theorem Encodes.entry (h : e.Encodes routes batch) {place : ℕ} {route : SignedChunkRoute}
    (hroute : routes[place]? = some route) : ∃ compact first, batch.routes[place]? = some compact ∧
      compact.sourceRef = ref e.sourceKey routes (e.sourceKey route) ∧
      e.compactRoute compact.sourceRef place route = some compact ∧
      first ∈ firstUses e.sourceKey routes ∧ e.sourceKey first = e.sourceKey route ∧
      (batch.sourceChunks.find? fun source => source.sourceRef = compact.sourceRef) =
        some (e.sourceChunk compact.sourceRef first) := by
  obtain ⟨compact, hcompact, hencoded⟩ := h.routes place route hroute
  obtain ⟨first, hfirst, hkey⟩ :=
    getElem?_ref (f := e.sourceKey) (List.mem_map_of_mem (List.mem_of_getElem? hroute))
  have href : compact.sourceRef = ref e.sourceKey routes (e.sourceKey route) :=
    (entry_of_compactRoute hencoded).sourceRef
  refine ⟨compact, first, hcompact, href, ?_, List.mem_of_getElem? hfirst, hkey, ?_⟩
  · rw [href]
    exact hencoded
  · rw [h.chunks, find?_sourceRef, href, hfirst, Option.map_some]

theorem Encodes.inOrder (h : e.Encodes routes batch) : InOrder batch := by
  have hrefs : batch.routes.map CompactRoute.sourceRef = routes.map fun route =>
      ref e.sourceKey routes (e.sourceKey route) := by
    refine List.ext_getElem? fun place => ?_
    rw [List.getElem?_map, List.getElem?_map]
    cases hroute : routes[place]? with
    | none =>
      have hge := List.getElem?_eq_none_iff.mp hroute
      rw [List.getElem?_eq_none (h.length ▸ hge)]
      rfl
    | some route =>
      obtain ⟨compact, first, hcompact, href, -⟩ := h.entry hroute
      rw [hcompact, Option.map_some, Option.map_some, href]
  refine ⟨?_, ?_⟩
  · rw [h.chunks, List.length_mapIdx]
    refine List.ext_getElem? fun n => ?_
    rw [List.getElem?_map, List.getElem?_mapIdx]
    cases hfirst : (firstUses e.sourceKey routes)[n]? with
    | none => rw [List.getElem?_eq_none
        (by rw [List.length_range]; exact List.getElem?_eq_none_iff.mp hfirst)]; rfl
    | some first => rw [List.getElem?_range (List.getElem?_eq_some_iff.mp hfirst).1]; rfl
  · rw [hrefs, firstUses_refs, h.chunks, List.length_mapIdx]

theorem Encodes.shares (h : e.Encodes routes batch) : Shares routes batch ↔
    ∀ route ∈ routes, ∀ route' ∈ routes, e.sourceKey route = e.sourceKey route' ↔
      SameSource route route' := by
  constructor
  · intro hshares route hroute route' hroute'
    obtain ⟨i, hi⟩ := List.mem_iff_getElem?.mp hroute
    obtain ⟨j, hj⟩ := List.mem_iff_getElem?.mp hroute'
    obtain ⟨compact, -, hcompact, href, -⟩ := h.entry hi
    obtain ⟨compact', -, hcompact', href', -⟩ := h.entry hj
    rw [← hshares i j route route' compact compact' hi hj hcompact hcompact', href, href']
    exact (ref_inj hroute).symm
  · intro hkeys i j route route' compact compact' hi hj hcompact hcompact'
    obtain ⟨entry, -, hentry, href, -⟩ := h.entry hi
    obtain ⟨entry', -, hentry', href', -⟩ := h.entry hj
    obtain rfl := Option.some.inj (hcompact.symm.trans hentry)
    obtain rfl := Option.some.inj (hcompact'.symm.trans hentry')
    rw [href, href', ref_inj (List.mem_of_getElem? hi)]
    exact hkeys route (List.mem_of_getElem? hi) route' (List.mem_of_getElem? hj)

structure Keeps (e : Encoder) (route : SignedChunkRoute) : Prop where
  text : (e.sentText route.expiresAt).get = route.expiresAt.get
  headers : (e.sentHeaders route.headers).get = route.headers.get
  destHeaders : (e.sentHeaders route.destHeaders).get = route.destHeaders.get
  deliveryIndex : ∀ place, e.deliveryIndex place route.deliveryIndex (route.metadata.get.getD []) =
    some (index (route.index place))
  groupID : e.groupID (route.member "multipart_group_id") = route.groupID

theorem groupID_ne (route : SignedChunkRoute) : route.groupID ≠ some "" := by
  unfold SignedChunkRoute.groupID
  split
  · split
    · exact nofun
    · rename_i text _ hne
      exact fun hsame => hne (Option.some.inj hsame)
  · exact nofun

theorem Encodes.lossless (h : e.Encodes routes batch) (hkeeps : ∀ route ∈ routes, e.Keeps route)
    (hkeys : ∀ route ∈ routes, ∀ route' ∈ routes, e.sourceKey route = e.sourceKey route' →
      SameSource route route') :
    Lossless routes batch := by
  have hjoined : ∀ compact ∈ batch.routes,
      ((batch.sourceChunks.find? fun source => source.sourceRef = compact.sourceRef).map
      fun source => (⟨source, compact⟩ : ExpandedRoute)).isSome := by
    intro compact hcompact
    obtain ⟨place, hplace⟩ := List.mem_iff_getElem?.mp hcompact
    obtain ⟨hlt, -⟩ := List.getElem?_eq_some_iff.mp hplace
    obtain ⟨route, hroute⟩ : ∃ route, routes[place]? = some route :=
      ⟨_, List.getElem?_eq_getElem (h.length ▸ hlt)⟩
    obtain ⟨entry, first, hentry, -, -, -, -, hfound⟩ := h.entry hroute
    obtain rfl := Option.some.inj (hplace.symm.trans hentry)
    rw [hfound]
    rfl
  obtain ⟨expanded, hexpand, hlength, hentries⟩ := mapM_entries hjoined
  refine ⟨expanded, hexpand, hlength.trans h.length, fun place route hroute => ?_⟩
  obtain ⟨compact, first, hcompact, href, hencoded, hfirst, hkey, hfound⟩ := h.entry hroute
  obtain ⟨x, hx, hjoin⟩ := hentries place compact hcompact
  rw [hfound, Option.map_some] at hjoin
  obtain rfl := Option.some.inj hjoin
  have hmem := List.mem_of_getElem? hroute
  have hin : first ∈ routes := by
    obtain ⟨earlier, later, hsplit, -⟩ := mem_of_mem_firstUses hfirst
    rw [hsplit]
    exact List.mem_append_right _ (List.mem_cons_self ..)
  have hsame := hkeys first hin route hmem hkey
  have hfirstKeeps := hkeeps first hin
  have hrouteKeeps := hkeeps route hmem
  have hentry := entry_of_compactRoute hencoded
  have hmetadata : compact.metadata.getD [] = route.keptMetadata := by
    rw [hentry.metadata, hrouteKeeps.groupID]
    unfold SignedChunkRoute.keptMetadata
    cases hgroup : route.groupID with
    | none => rfl
    | some text =>
      have hne : text ≠ "" := fun hempty => groupID_ne route (hgroup.trans (congrArg some hempty))
      rw [Option.getD_some, if_neg hne]
      exact (if_neg nofun).symm
  have hindex : index (route.index place) = compact.deliveryIndex :=
    Option.some.inj ((hrouteKeeps.deliveryIndex place).symm.trans hentry.deliveryIndex)
  refine ⟨⟨e.sourceChunk compact.sourceRef first, compact⟩, hx, ?_⟩
  refine ⟨hsame.sourceID, hsame.chunkIndex, hsame.sourceURL, hsame.sourceOffset,
    hsame.chunkSize, ?_, ?_, ?_,
    hentry.destinationID, hentry.destURL, ?_, hindex.symm,
      hentry.multipartGroupID.trans hrouteKeeps.groupID, hmetadata⟩
  · have hheaders : (e.sentHeaders first.headers).get = first.headers.get := hfirstKeeps.headers
    show sameHeaders (e.sentHeaders first.headers).get route.headers.get
    rw [hheaders]
    exact hsame.headers
  · exact hfirstKeeps.text.trans hsame.expiresAt
  · rw [hentry.expiresAt]
    exact hrouteKeeps.text
  · rw [hentry.destHeaders]
    exact hrouteKeeps.destHeaders

end Encoder
end Beam.Batch
