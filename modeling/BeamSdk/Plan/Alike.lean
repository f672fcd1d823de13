import BeamSdk.Plan.Expansion

/-! The chunks of a plan tile its transfer, and the SDKs differ on them only where Go alone takes a
destination for Hippius. -/

namespace Beam.Plan

def ranges (items : List ChunkSigningPlanItem) (source : CompactTransferPlanSource) :
    List (ℤ × ℤ) :=
  (items.filter fun item => item.sourceID = source.sourceID).map fun item =>
    (item.sourceOffset, item.chunkSize)

def partNumbers (items : List ChunkSigningPlanItem) (source : CompactTransferPlanSource) :
    List (List (Option Json)) :=
  (items.filter fun item => item.sourceID = source.sourceID).map fun item =>
    item.destinations.map fun target => OrderedMap.get target.metadata "part_number"

def deliveryIndexes (items : List ChunkSigningPlanItem) : List (Option Json) :=
  items.flatMap fun item => item.destinations.map fun target =>
    OrderedMap.get target.metadata "delivery_index"

structure TilesTransfer (d : CompactTransferPlanDescriptor)
    (items : List ChunkSigningPlanItem) : Prop where
  once : items.map (fun item => (item.sourceID, item.sourceChunkIndex)) =
    d.sources.flatMap fun source =>
      (List.range source.chunkCount.toNat).map fun i : ℕ => (source.sourceID, (i : ℤ))
  chunkIndexes : items.map (·.chunkIndex) = (List.range d.logicalChunkCount.toNat).map (↑)
  nonempty : ∀ source ∈ d.sources, ∀ range ∈ ranges items source, 0 < range.2
  ordered : ∀ source ∈ d.sources,
    (ranges items source).Pairwise fun range other => range.1 + range.2 ≤ other.1
  covered : ∀ source ∈ d.sources, ∀ byte, (0 ≤ byte ∧ byte < source.size) ↔
    ∃ range ∈ ranges items source, range.1 ≤ byte ∧ byte < range.1 + range.2
  parts : ∀ source ∈ d.sources, partNumbers items source =
    (List.range source.chunkCount.toNat).map fun i : ℕ =>
      List.replicate d.destinations.length (some (.number ((i + 1 : ℕ) : ℚ)))
  deliveries : (deliveryIndexes items).Perm
    ((List.range d.deliveryRouteCount.toNat).map fun i : ℕ => some (.number i))

section Items
variable {isHippius : String → Bool} {d : CompactTransferPlanDescriptor}

theorem mem_planItems {item : ChunkSigningPlanItem} :
    item ∈ planItems isHippius d ↔
      ∃ source ∈ d.sources, ∃ i : ℕ, (i : ℤ) < source.chunkCount ∧
        planItem isHippius d source i = item := by
  simp only [planItems, itemsOf, List.mem_flatMap, List.mem_map, List.mem_range, Int.lt_toNat]

theorem filter_itemsOf_of_notMem {sources : List CompactTransferPlanSource} {sourceID : String}
    (h : sourceID ∉ sources.map (·.sourceID)) :
    ((itemsOf isHippius d sources).filter fun item => item.sourceID = sourceID) = [] := by
  rw [List.filter_eq_nil_iff]
  intro item hitem hid
  simp only [itemsOf, List.mem_flatMap, List.mem_map] at hitem
  obtain ⟨source, hsource, i, -, rfl⟩ := hitem
  exact h (List.mem_map.mpr ⟨source, hsource, of_decide_eq_true hid⟩)

theorem filter_itemsOf {sources : List CompactTransferPlanSource}
    (h : (sources.map (·.sourceID)).Nodup)
    {source : CompactTransferPlanSource} (hsource : source ∈ sources) :
    ((itemsOf isHippius d sources).filter fun item => item.sourceID = source.sourceID) =
      (List.range source.chunkCount.toNat).map (planItem isHippius d source) := by
  induction sources with
  | nil => cases hsource
  | cons first rest ih =>
    obtain ⟨hfirst, hrest⟩ := List.nodup_cons.mp h
    have hsplit : itemsOf isHippius d (first :: rest) =
        (List.range first.chunkCount.toNat).map (planItem isHippius d first) ++
          itemsOf isHippius d rest := rfl
    rw [hsplit, List.filter_append]
    rcases List.mem_cons.mp hsource with rfl | hsource
    · rw [filter_itemsOf_of_notMem hfirst, List.append_nil, List.filter_eq_self]
      intro item hitem
      obtain ⟨i, -, rfl⟩ := List.mem_map.mp hitem
      exact decide_eq_true rfl
    · rw [ih hrest hsource, List.filter_eq_nil_iff.mpr, List.nil_append]
      intro item hitem hid
      obtain ⟨i, -, rfl⟩ := List.mem_map.mp hitem
      exact hfirst (List.mem_map.mpr ⟨source, hsource, (of_decide_eq_true hid).symm⟩)

theorem chunkIndexes_itemsOf (isHippius : String → Bool) (d : CompactTransferPlanDescriptor)
    {sources : List CompactTransferPlanSource} {start : ℤ} (h : Contiguous start sources)
    (hcounts : ∀ source ∈ sources, 0 ≤ source.chunkCount) :
    (itemsOf isHippius d sources).map (·.chunkIndex) =
      (List.range (sources.map CompactTransferPlanSource.chunkCount).sum.toNat).map fun i : ℕ =>
        start + (i : ℤ) := by
  induction sources generalizing start with
  | nil => rfl
  | cons first rest ih =>
    obtain ⟨hstart, hrest⟩ := h
    have hfirst := hcounts first List.mem_cons_self
    have hcounts' : ∀ source ∈ rest, 0 ≤ source.chunkCount :=
      fun source hsource => hcounts source (List.mem_cons_of_mem _ hsource)
    have hsum : 0 ≤ (rest.map (·.chunkCount)).sum := List.sum_nonneg fun n hn => by
      obtain ⟨source, hsource, rfl⟩ := List.mem_map.mp hn
      exact hcounts' source hsource
    have hsplit : itemsOf isHippius d (first :: rest) =
        (List.range first.chunkCount.toNat).map (planItem isHippius d first) ++
          itemsOf isHippius d rest := rfl
    have hcount : (first.chunkCount.toNat : ℤ) = first.chunkCount := Int.toNat_of_nonneg hfirst
    rw [hsplit, List.map_append, ih hrest hcounts', List.map_cons, List.sum_cons,
      Int.toNat_add hfirst hsum,
      List.range_add, List.map_append, List.map_map, List.map_map]
    congr 1
    · exact List.map_congr_left fun i _ => by simp [planItem, hstart]
    · exact List.map_congr_left fun i _ => by simp [hcount, add_assoc]

theorem chunkTarget_partNumber (planNonce : String)
    (chunkIndex sourceChunkIndex deliveryIndex partNumber : ℤ)
    (finalObjectKey : String) (destination : CompactTransferPlanDestination) :
    OrderedMap.get
      (chunkTarget isHippius planNonce chunkIndex sourceChunkIndex deliveryIndex partNumber
      finalObjectKey destination).metadata "part_number" = some (.number partNumber) := by
  rw [chunkTarget, OrderedMap.get_set_of_ne _ (by decide), OrderedMap.get_set_of_ne _ (by decide),
    OrderedMap.get_set_of_ne _ (by decide), OrderedMap.get_set_of_ne _ (by decide),
      OrderedMap.get_set_self]

theorem chunkTarget_deliveryIndex (planNonce : String)
    (chunkIndex sourceChunkIndex deliveryIndex partNumber : ℤ)
    (finalObjectKey : String) (destination : CompactTransferPlanDestination) :
    OrderedMap.get
      (chunkTarget isHippius planNonce chunkIndex sourceChunkIndex deliveryIndex partNumber
      finalObjectKey destination).metadata "delivery_index" = some (.number deliveryIndex) :=
  OrderedMap.get_set_self _ _ _

theorem ranges_planItems (h : WellFormed d) {source : CompactTransferPlanSource}
    (hsource : source ∈ d.sources) :
    Tiling.Tiles 0 source.size (ranges (planItems isHippius d) source) := by
  have htiles := Tiling.tiles_chunks (h.sizes source hsource).1 h.chunkSize_pos
  rwa [← (h.counts source hsource).1,
    show ((List.range source.chunkCount.toNat).map fun i : ℕ =>
        ((i : ℤ) * d.chunkSize, min d.chunkSize (source.size - i * d.chunkSize))) =
      ranges (planItems isHippius d) source by
        rw [ranges, planItems, filter_itemsOf h.ids hsource, List.map_map]
        rfl] at htiles

theorem deliveryIndexes_planItems (h : WellFormed d) :
    (deliveryIndexes (planItems isHippius d)).Perm
    ((List.range d.deliveryRouteCount.toNat).map fun i : ℕ => some (.number i)) := by
  have hcounts : ∀ source ∈ d.sources, 0 ≤ source.chunkCount :=
    fun _ hsource => h.chunkCount_nonneg hsource
  have hindexes := chunkIndexes_itemsOf isHippius d h.starts hcounts
  have hnonneg : 0 ≤ d.logicalChunkCount := List.sum_nonneg fun n hn => by
    obtain ⟨source, hsource, rfl⟩ := List.mem_map.mp hn
    exact hcounts source hsource
  have hgrid := Tiling.perm_grid _ _ h.indexes d.logicalChunkCount.toNat
  have hrows : deliveryIndexes (planItems isHippius d) =
      ((planItems isHippius d).map (·.chunkIndex)).flatMap fun chunkIndex =>
        (d.destinations.map (·.destinationIndex)).map fun column =>
          some (Json.number ((chunkIndex * d.destinations.length + column : ℤ) : ℚ)) := by
    rw [List.flatMap_map, deliveryIndexes]
    refine List.flatMap_congr fun item hitem => ?_
    obtain ⟨source, -, i, -, rfl⟩ := mem_planItems.mp hitem
    simp only [planItem, List.map_map, Function.comp_def, chunkTarget_deliveryIndex]
  have htotal : d.deliveryRouteCount.toNat = d.logicalChunkCount.toNat * d.destinations.length := by
    rw [CompactTransferPlanDescriptor.deliveryRouteCount,
      Int.toNat_mul hnonneg (Int.natCast_nonneg _),
      Int.toNat_natCast]
  have hmapped := hgrid.map fun n : ℤ => some (Json.number n)
  rw [hrows, show (planItems isHippius d).map (·.chunkIndex) = _ from hindexes, htotal]
  simpa only [List.map_flatMap, List.flatMap_map, List.map_map, Function.comp_def, zero_add,
    Int.cast_natCast,
    CompactTransferPlanDescriptor.logicalChunkCount] using hmapped

theorem planItems_tile (h : WellFormed d) : TilesTransfer d (planItems isHippius d) where
  once := by
    simp only [planItems, itemsOf, List.map_flatMap, List.map_map, Function.comp_def, planItem]
  chunkIndexes := by
    have hindexes := chunkIndexes_itemsOf isHippius d h.starts fun _ hsource =>
      h.chunkCount_nonneg hsource
    simp only [zero_add] at hindexes
    exact hindexes
  nonempty _ hsource := (ranges_planItems h hsource).pos
  ordered _ hsource := (ranges_planItems h hsource).pairwise
  covered _ hsource byte := (ranges_planItems h hsource).mem_iff byte
  parts source hsource := by
    rw [partNumbers, planItems, filter_itemsOf h.ids hsource, List.map_map]
    refine List.map_congr_left fun i _ => ?_
    simp only [Function.comp_apply, planItem, List.map_map, Function.comp_def,
      chunkTarget_partNumber,
      List.map_const', Int.cast_add, Int.cast_natCast, Int.cast_one, Nat.cast_add, Nat.cast_one]
  deliveries := deliveryIndexes_planItems h

end Items

def hippiusLongS : List Char := ['h', 'i', 'p', 'p', 'i', 'u', 'ſ']

/-- What `toLowerCase` makes of a character that stays one. -/
def lowered (c : Char) : Char := if c = '\u212a' then 'k' else c.toLower

theorem flatMap_lowerCase_eq_iff {word : List Char} (hdot : '\u0307' ∉ word) (hbig : 'İ' ∉ word)
    (text : List Char) : text.flatMap lowerCase = word ↔ text.map lowered = word := by
  induction text generalizing word with
  | nil => rfl
  | cons c text ih =>
    rw [List.flatMap_cons, List.map_cons]
    by_cases hc : c = 'İ'
    · subst hc
      constructor
      · intro h
        rw [← h] at hdot
        simp [lowerCase] at hdot
      · intro h
        rw [← h] at hbig
        exact absurd (List.mem_cons_self (a := 'İ')) hbig
    · have hsingle : lowerCase c = [lowered c] := by
        rw [lowerCase, if_neg hc, lowered]
        split_ifs <;> rfl
      rw [hsingle]
      cases word with
      | nil => simp
      | cons w word =>
        have hrest := ih (fun h => hdot (List.mem_cons_of_mem w h))
          (fun h => hbig (List.mem_cons_of_mem _ h))
        simp only [List.singleton_append, List.cons.injEq, hrest]

def shortS (c : Char) : Char := if c = 'ſ' then 's' else c

theorem toLower_ascii (c : Char) : c.toLower = c ∨ c.toLower.toNat ≤ 122 := by
  by_cases hupper : c.val ≥ 'A'.val ∧ c.val ≤ 'Z'.val
  · right
    have hle : c.val.toNat ≤ 90 := hupper.2
    have hval : c.toLower.toNat = (c.val + ('a'.val - 'A'.val)).toNat := by
      delta Char.toLower
      rw [dif_pos hupper]
      rfl
    rw [hval, UInt32.toNat_add, show ('a'.val - 'A'.val).toNat = 32 by decide]
    omega
  · left
    delta Char.toLower
    rw [dif_neg hupper]

theorem shortS_lowered (c : Char) : shortS (lowered c) = simpleFold c := by
  by_cases hs : c = 'ſ'
  · subst hs
    rfl
  · by_cases hk : c = '\u212a'
    · subst hk
      rfl
    · have hlow : c.toLower ≠ 'ſ' := by
        intro h
        rcases toLower_ascii c with heq | hle
        · exact hs (heq.symm.trans h)
        · rw [h] at hle
          exact absurd hle (by decide)
      rw [lowered, if_neg hk, shortS, if_neg hlow, simpleFold, if_neg hs, if_neg hk]

theorem map_shortS_eq_iff {word : List Char} (hs : 's' ∉ word) (hlong : 'ſ' ∉ word)
    (text : List Char) :
    text.map shortS = word ↔ text = word := by
  induction text generalizing word with
  | nil => rfl
  | cons c text ih =>
    cases word with
    | nil => simp
    | cons w word =>
      have hrest := ih (fun h => hs (List.mem_cons_of_mem w h))
        (fun h => hlong (List.mem_cons_of_mem _ h))
      have hfirst : shortS c = w ↔ c = w := by
        by_cases hc : c = 'ſ'
        · subst hc
          constructor
          · intro h
            exact absurd (h ▸ List.mem_cons_self) hs
          · intro h
            exact absurd (h ▸ List.mem_cons_self) hlong
        · rw [shortS, if_neg hc]
      rw [List.map_cons, List.cons.injEq, List.cons.injEq, hfirst, hrest]

theorem map_shortS_eq_hippius (text : List Char) :
    text.map shortS = hippius ↔ text = hippius ∨ text = hippiusLongS := by
  have hsplit : hippius = ['h', 'i', 'p', 'p', 'i', 'u'] ++ ['s'] := rfl
  have hlast : ∀ c : Char, shortS c = 's' ↔ c = 's' ∨ c = 'ſ' := by
    intro c
    by_cases hc : c = 'ſ'
    · simp [shortS, hc]
    · simp [shortS, hc]
  rw [hsplit, List.map_eq_append_iff]
  constructor
  · rintro ⟨stem, last, rfl, hstem, hend⟩
    obtain rfl := (map_shortS_eq_iff (by decide) (by decide) stem).mp hstem
    obtain ⟨c, rfl, hc⟩ := List.map_eq_singleton_iff.mp hend
    rcases (hlast c).mp hc with rfl | rfl
    · exact .inl rfl
    · exact .inr rfl
  · rintro (rfl | rfl)
    · exact ⟨['h', 'i', 'p', 'p', 'i', 'u'], ['s'], rfl, by decide, by decide⟩
    · exact ⟨['h', 'i', 'p', 'p', 'i', 'u'], ['ſ'], rfl, by decide, by decide⟩

theorem typescript_isHippius (provider : String) :
    typescript.isHippius provider = decide (provider.toList.map lowered = hippius) :=
  decide_eq_decide.mpr (flatMap_lowerCase_eq_iff (by decide) (by decide) _)

theorem map_lowered_eq_iff {word : List Char} (hk : 'k' ∉ word) (hsign : '\u212a' ∉ word)
    (text : List Char) :
    text.map lowered = word ↔ text.map Char.toLower = word := by
  induction text generalizing word with
  | nil => rfl
  | cons c text ih =>
    cases word with
    | nil => simp
    | cons w word =>
      have hrest := ih (fun h => hk (List.mem_cons_of_mem w h))
        (fun h => hsign (List.mem_cons_of_mem _ h))
      have hfirst : lowered c = w ↔ c.toLower = w := by
        by_cases hc : c = '\u212a'
        · subst hc
          constructor
          · intro h
            exact absurd (h ▸ List.mem_cons_self) hk
          · intro h
            exact absurd (h ▸ List.mem_cons_self) hsign
        · rw [lowered, if_neg hc]
      rw [List.map_cons, List.map_cons, List.cons.injEq, List.cons.injEq, hfirst, hrest]

theorem rust_isHippius : rust.isHippius = typescript.isHippius := by
  funext provider
  rw [typescript_isHippius]
  exact decide_eq_decide.mpr (map_lowered_eq_iff (by decide) (by decide) _).symm

theorem go_isHippius_eq_iff (provider : String) :
    go.isHippius provider = typescript.isHippius provider ↔
      provider.toList.flatMap lowerCase ≠ hippiusLongS := by
  have hgo : provider.toList.map simpleFold = (provider.toList.map lowered).map shortS := by
    rw [List.map_map]
    exact List.map_congr_left fun c _ => (shortS_lowered c).symm
  rw [Ne, flatMap_lowerCase_eq_iff (by decide) (by decide), typescript_isHippius]
  show decide (provider.toList.map simpleFold = hippius) = _ ↔ _
  rw [hgo, decide_eq_decide, map_shortS_eq_hippius]
  constructor
  · intro h hlong
    have hshort := h.mp (.inr hlong)
    rw [hlong] at hshort
    exact absurd hshort (by decide)
  · intro hlong
    exact or_iff_left hlong

/-- The four SDKs yield the same chunks, which tile the transfer and are those that a direct call
gives. -/
def Alike (d : CompactTransferPlanDescriptor) : Prop :=
  ∃ items, TilesTransfer d items ∧
    Drains (go.next d) newPlanChunkIterator items ∧
      Drains (rust.next d) newPlanChunkIterator items ∧
    typescript.materializePlanChunks d = .ok items ∧ python.materializePlanChunks d = .ok items ∧
    ∀ sdk ∈ [go, typescript, python, rust], ∀ item ∈ items,
      sdk.materializePlanChunk d item.sourceID item.chunkIndex = .ok item

section Alike
variable {d : CompactTransferPlanDescriptor}

theorem direct {sdk : Sdk} (hexact : Exact sdk) (h : WellFormed d) :
    ∀ item ∈ planItems sdk.isHippius d, sdk.materializePlanChunk d item.sourceID item.chunkIndex =
      .ok item := by
  intro item hitem
  obtain ⟨source, hsource, i, hi, rfl⟩ := mem_planItems.mp hitem
  exact materializePlanChunk_eq hexact h hsource hi

theorem hippiusKey_ne (finalObjectKey planNonce digits : String) :
    s!"{finalObjectKey}/{planNonce}/chunk-{digits}" ≠ finalObjectKey := by
  intro h
  have hlength := congrArg String.length h
  have hslash : (toString "/").length = 1 := by decide
  simp only [String.length_append, hslash] at hlength
  have hkey : (toString finalObjectKey).length = finalObjectKey.length := rfl
  omega

theorem Alike.isHippius_eq (halike : Alike d) (h : WellFormed d)
    {source : CompactTransferPlanSource}
    (hsource : source ∈ d.sources) (hcount : 0 < source.chunkCount)
    {destination : CompactTransferPlanDestination}
    (hdestination : destination ∈ d.destinations) :
    go.isHippius destination.provider = typescript.isHippius destination.provider := by
  obtain ⟨items, -, hgo, -, hts, -, hdirect⟩ := halike
  have hitems : items = planItems go.isHippius d := hgo.unique (drains go_exact h)
  have hitem : planItem go.isHippius d source 0 ∈ items := by
    rw [hitems, mem_planItems]
    exact ⟨source, hsource, 0, hcount, rfl⟩
  have hchunk := hdirect typescript (by simp) _ hitem
  have hother := materializePlanChunk_eq typescript_exact h hsource (i := 0) hcount
  have hsame : planItem typescript.isHippius d source 0 = planItem go.isHippius d source 0 :=
    Except.ok.inj (hother.symm.trans hchunk)
  have htargets := congrArg ChunkSigningPlanItem.destinations hsame
  have htarget := List.map_inj_left.mp htargets destination hdestination
  have hkey := congrArg ChunkDestinationSigningTarget.objectKey htarget
  simp only [chunkTarget] at hkey
  by_contra hne
  rcases Bool.eq_false_or_eq_true (go.isHippius destination.provider) with hg | hg
  · rw [hg, Bool.eq_false_of_not_eq_true fun ht => hne (hg.trans ht.symm)] at hkey
    exact hippiusKey_ne _ _ _ hkey.symm
  · rw [hg, Bool.eq_true_of_not_eq_false fun ht => hne (hg.trans ht.symm)] at hkey
    exact hippiusKey_ne _ _ _ hkey

theorem alike_of_planItems (h : WellFormed d)
    (hitems : planItems go.isHippius d = planItems typescript.isHippius d) :
    Alike d := by
  refine ⟨planItems typescript.isHippius d, planItems_tile h, hitems ▸ drains go_exact h,
    rust_isHippius ▸ drains rust_exact h, materializePlanChunks_eq typescript_exact h,
    materializePlanChunks_eq python_exact h, ?_⟩
  intro sdk hsdk
  simp only [List.mem_cons, List.not_mem_nil, or_false] at hsdk
  rcases hsdk with rfl | rfl | rfl | rfl
  · exact hitems ▸ direct go_exact h
  · exact direct typescript_exact h
  · exact direct python_exact h
  · exact rust_isHippius ▸ direct rust_exact h

/-- The SDKs agree on a plan unless it has chunks and a destination whose provider is "hippius"
with a long s. -/
theorem alike_iff (h : WellFormed d) :
    Alike d ↔ d.logicalChunkCount = 0 ∨
      ∀ destination ∈ d.destinations, destination.provider.toList.flatMap lowerCase ≠
        hippiusLongS := by
  constructor
  · intro halike
    by_cases hzero : d.logicalChunkCount = 0
    · exact .inl hzero
    · right
      obtain ⟨source, hsource, hcount⟩ : ∃ source ∈ d.sources, 0 < source.chunkCount := by
        by_contra hnone
        push Not at hnone
        refine hzero (List.sum_eq_zero fun n hn => ?_)
        obtain ⟨source, hsource, rfl⟩ := List.mem_map.mp hn
        exact le_antisymm (hnone source hsource) (h.chunkCount_nonneg hsource)
      intro destination hdestination
      exact (go_isHippius_eq_iff _).mp (halike.isHippius_eq h hsource hcount hdestination)
  · intro hcases
    refine alike_of_planItems h (List.flatMap_congr fun source hsource =>
      List.map_congr_left fun i hi => ?_)
    have hcount : 0 < source.chunkCount := by
      have hlt : (i : ℤ) < source.chunkCount := Int.lt_toNat.mp (List.mem_range.mp hi)
      exact (Int.natCast_nonneg i).trans_lt hlt
    have htests : ∀ destination ∈ d.destinations,
        go.isHippius destination.provider = typescript.isHippius destination.provider := by
      intro destination hdestination
      rcases hcases with hzero | hnone
      · obtain ⟨hlow, hhigh⟩ := h.chunkIndex_bounds hsource (i := 0) hcount
        rw [hzero, Nat.cast_zero, add_zero] at hhigh
        exact absurd hlow (not_le.mpr hhigh)
      · exact (go_isHippius_eq_iff _).mpr (hnone destination hdestination)
    rw [planItem, planItem, ChunkSigningPlanItem.mk.injEq]
    refine ⟨rfl, rfl, rfl, rfl, rfl, rfl, List.map_congr_left fun destination hdestination => ?_⟩
    rw [chunkTarget, chunkTarget, htests destination hdestination]

end Alike

def samplePlan (provider : String) : CompactTransferPlanDescriptor where
  planNonce := "n1"
  chunkSize := 4
  sources := [⟨"a", "https://source/a", 10, 0, 3⟩, ⟨"b", "https://source/b", 4, 3, 1⟩]
  destinations := [⟨"d", provider, [], 0, [("a", "out/a"), ("b", "out/b")]⟩]

theorem samplePlan_wellFormed (provider : String) : WellFormed (samplePlan provider) where
  chunkSize_pos := show (0 : ℤ) < 4 by decide
  chunkSize_lt := show (4 : ℤ) < 2 ^ 53 by decide
  ids := show ["a", "b"].Nodup by decide
  sizes := by simp [samplePlan]
  counts := by simp [samplePlan, Tiling.count]
  starts := ⟨rfl, rfl, trivial⟩
  indexes := List.Perm.refl _
  keys := by simp [samplePlan, OrderedMap.get]
  chunks_lt := show (4 : ℤ) < 2 ^ 53 by decide
  routes_lt := show (4 : ℤ) < 2 ^ 53 by decide

theorem samplePlan_alike : Alike (samplePlan "s3") :=
  (alike_iff (samplePlan_wellFormed "s3")).mpr (.inr (by decide))

/-- Go alone puts the chunk of a destination with a long s under the key of the object, as it does
for Hippius. -/
theorem samplePlan_differs :
    WellFormed (samplePlan "hippiuſ") ∧ go.isHippius "hippiuſ" = true ∧
      typescript.isHippius "hippiuſ" = false ∧
      ¬ Alike (samplePlan "hippiuſ") := by
  refine ⟨samplePlan_wellFormed _, by decide, by decide, fun halike => ?_⟩
  have htests :=
    halike.isHippius_eq (samplePlan_wellFormed _) List.mem_cons_self (by decide) List.mem_cons_self
  exact absurd htests (by decide)

end Beam.Plan
