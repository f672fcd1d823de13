import BeamSdk.Batch.Lossless
import Mathlib.Tactic.Linarith

/-! Where the four SDKs send the same batch for the same routes, with nothing lost. -/

namespace Beam.Batch
open Interning
variable {platform : Platform} {routes : List SignedChunkRoute} {route route' : SignedChunkRoute}

def Agrees (platform : Platform) (routes : List SignedChunkRoute) : Prop :=
  ∃ batch, (∀ sdk : Sdk, (sdk.encoder platform).compactSignedRoutes routes = some batch) ∧
    Lossless routes batch ∧ Shares routes batch ∧ InOrder batch

/-- No field is null where a language sends nulls, or empty where a language takes that for
absence; indices and group identities are found in the metadata as what they are; and headers of
one source are listed in one order. -/
structure Regular (routes : List SignedChunkRoute) : Prop where
  expiresAt : ∀ route ∈ routes, route.expiresAt ≠ .null ∧ route.expiresAt ≠ .value ""
  destHeaders : ∀ route ∈ routes, route.destHeaders ≠ .null ∧
    route.destHeaders.get.map Subtype.val ≠ some []
  headers : ∀ route ∈ routes, route.headers.get.map Subtype.val ≠ some []
  nullHeaders : ∀ earlier route later, routes = earlier ++ route :: later → route.headers = .null →
    ∃ first ∈ earlier, SameSource first route ∧ first.headers = .missing
  deliveryIndex : ∀ route ∈ routes, route.deliveryIndex ≠ .null ∧
    (route.deliveryIndex = .missing → ∀ value ∈ route.member "delivery_index", ∃ n : ℕ,
      value = index n)
  groupID : ∀ route ∈ routes, ∀ value ∈ route.member "multipart_group_id",
    (∃ text, value = .string text) ↔ Python.truthy value = true
  order : ∀ route ∈ routes, ∀ route' ∈ routes, SameSource route route' →
    route.headers.get.map (fun headers => objectEntries headers.1) =
      route'.headers.get.map fun headers => objectEntries headers.1

theorem sorted_eq_iff (headers headers' : Headers) : headers.sorted = headers'.sorted ↔
    headers.Same headers' := by
  have hperm (headers : Headers) : headers.sorted.Perm headers.1 := List.perm_insertionSort _ _
  refine ⟨fun h => (hperm headers).symm.trans (h ▸ hperm headers'), fun h => ?_⟩
  have hsorted (headers : Headers) : headers.sorted.Pairwise fun a b => a.1 ≤ b.1 :=
    List.pairwise_insertionSort _ _
  refine List.Perm.eq_of_pairwise (fun a b ha hb hab hba => ?_) (hsorted headers) (hsorted headers')
    ((hperm headers).trans (h.trans (hperm headers').symm))
  -- a name stands once among them
  have ha' := (hperm headers).mem_iff.mp ha
  have hb' := h.mem_iff.mpr ((hperm headers').mem_iff.mp hb)
  exact List.inj_on_of_nodup_map headers.2 ha' hb' (le_antisymm hab hba)

theorem same_of_entries {headers headers' : Headers}
    (h : objectEntries headers.1 = objectEntries headers'.1) :
    headers.Same headers' :=
  (objectEntries_perm headers.1).symm.trans (h ▸ objectEntries_perm headers'.1)

theorem map_listed_iff {listed : Headers → List (String × String)}
    (headers headers' : Option Headers)
    (h : ∀ a ∈ headers, ∀ b ∈ headers', listed a = listed b ↔ a.Same b) :
    headers.map listed = headers'.map listed ↔ sameHeaders headers headers' := by
  cases headers with
  | none => cases headers' <;> simp [sameHeaders]
  | some a =>
    cases headers' with
    | none => simp [sameHeaders]
    | some b =>
      rw [Option.map_some, Option.map_some, Option.some.injEq]
      exact h a rfl b rfl

theorem sourceKey_eq_iff {e : Encoder}
    (htext : e.keyExpiresAt route.expiresAt = e.keyExpiresAt route'.expiresAt ↔
      route.expiresAt.get = route'.expiresAt.get)
    (hheaders : route.headers.get.map e.listed = route'.headers.get.map e.listed ↔
      sameHeaders route.headers.get route'.headers.get) :
    e.sourceKey route = e.sourceKey route' ↔ SameSource route route' := by
  simp only [Encoder.sourceKey, SourceKey.mk.injEq, htext, hheaders]
  constructor
  · rintro ⟨h₁, h₂, h₃, h₄, h₅, h₆, h₇⟩
    exact ⟨h₁, h₂, h₃, h₄, h₅, h₆, h₇⟩
  · intro h
    exact ⟨h.sourceID, h.chunkIndex, h.sourceURL, h.sourceOffset, h.chunkSize,
      h.expiresAt, h.headers⟩

theorem rust_key (platform : Platform) (route route' : SignedChunkRoute) :
    (Rust.encoder platform).sourceKey route = (Rust.encoder platform).sourceKey route' ↔
      SameSource route route' :=
  sourceKey_eq_iff Iff.rfl (map_listed_iff _ _ fun a _ b _ => sorted_eq_iff a b)

theorem typescript_key (h : (TypeScript.encoder platform).sourceKey route =
    (TypeScript.encoder platform).sourceKey route') :
    SameSource route route' ∧ route.headers.get.map (fun headers => objectEntries headers.1) =
      route'.headers.get.map fun headers => objectEntries headers.1 := by
  simp only [Encoder.sourceKey, SourceKey.mk.injEq] at h
  obtain ⟨h₁, h₂, h₃, h₄, h₅, h₆, h₇⟩ := h
  refine ⟨⟨h₁, h₂, h₃, h₄, h₅, h₆, ?_⟩, h₇⟩
  generalize route.headers.get = a at h₇ ⊢
  generalize route'.headers.get = b at h₇ ⊢
  cases a with
  | none =>
    cases b with
    | none => trivial
    | some b => cases h₇
  | some a =>
    cases b with
    | none => cases h₇
    | some b => exact same_of_entries (Option.some.inj h₇)

theorem key_iff (h : Regular routes) (sdk : Sdk) (hroute : route ∈ routes)
    (hroute' : route' ∈ routes) :
    (sdk.encoder platform).sourceKey route = (sdk.encoder platform).sourceKey route' ↔
      SameSource route route' := by
  cases sdk with
  | rust => exact rust_key platform route route'
  | python => exact rust_key platform route route'
  | go =>
    refine sourceKey_eq_iff ?_ (map_listed_iff _ _ fun a _ b _ => sorted_eq_iff a b)
    -- no text is empty, so that none is taken for a missing one
    have hne := (h.expiresAt route hroute).2
    have hne' := (h.expiresAt route' hroute').2
    show some (route.expiresAt.get.getD "") = some (route'.expiresAt.get.getD "") ↔ _
    rw [Option.some.injEq]
    generalize route.expiresAt = a at hne ⊢
    generalize route'.expiresAt = b at hne' ⊢
    cases a <;> cases b <;> simp_all [Field.get, eq_comm]
  | typescript =>
    refine ⟨fun hkeys => (typescript_key hkeys).1, fun hsame => ?_⟩
    have horder := h.order route hroute route' hroute' hsame
    simp only [Encoder.sourceKey, SourceKey.mk.injEq]
    exact ⟨hsame.sourceID, hsame.chunkIndex, hsame.sourceURL, hsame.sourceOffset, hsame.chunkSize,
      hsame.expiresAt, horder⟩

theorem natural_eq_some {value : ℚ} {n : ℕ} : natural value = some n ↔ value = n := by
  unfold natural
  constructor
  · intro h
    obtain ⟨⟨hden, hnum⟩, hn⟩ := Option.ite_none_right_eq_some.mp h
    have hvalue : value = (value.num : ℚ) := (Rat.coe_int_num_of_den_eq_one hden).symm
    obtain rfl := Option.some.inj hn
    have hcast : ((value.num.toNat : ℤ) : ℚ) = (value.num : ℚ) :=
      congrArg _ (Int.toNat_of_nonneg hnum)
    rw [hvalue]
    exact_mod_cast hcast.symm
  · rintro rfl
    rw [if_pos ⟨Rat.den_natCast n, by rw [Rat.num_natCast]; exact Int.natCast_nonneg n⟩,
      Rat.num_natCast, Int.toNat_natCast]

theorem natural_index (n : ℕ) : natural (n : ℚ) = some n := natural_eq_some.mpr rfl

theorem member_delivery (h : Regular routes) (hroute : route ∈ routes)
    (hmissing : route.deliveryIndex = .missing) :
    (route.metadata.get.getD []).get "delivery_index" = none ∨
      ∃ n : ℕ, n < 2 ^ 53 ∧ (route.metadata.get.getD []).get "delivery_index" = some (index n) := by
  cases hmember : (route.metadata.get.getD []).get "delivery_index" with
  | none => exact .inl rfl
  | some value =>
    obtain ⟨n, rfl⟩ := (h.deliveryIndex route hroute).2 hmissing value hmember
    refine .inr ⟨n, ?_, rfl⟩
    have hexact := (route.exact n hmember).2
    exact_mod_cast hexact

theorem delivery_eq (h : Regular routes) (sdk : Sdk) (hroute : route ∈ routes) (place : ℕ) :
    (sdk.encoder platform).deliveryIndex place route.deliveryIndex (route.metadata.get.getD []) =
      some (index (route.index place)) := by
  cases hown : route.deliveryIndex with
  | null => exact absurd hown (h.deliveryIndex route hroute).1
  | value n =>
    have hindex : route.index place = n := by rw [SignedChunkRoute.index, hown]
    rw [hindex]
    cases sdk with
    | typescript => rfl
    | go => rfl
    | rust => rfl
    | python =>
      show (if Python.isIndex (index n) then some (index n) else none) = _
      rw [if_pos]
      rw [index, Python.isIndex, natural_index]
      rfl
  | missing =>
    rcases member_delivery h hroute hown with hnone | ⟨n, hn, hmember⟩
    · have hindex : route.index place = place := by
        rw [SignedChunkRoute.index, hown]
        dsimp only
        rw [SignedChunkRoute.member, hnone]
      rw [hindex]
      cases sdk with
      | typescript => simp only [Sdk.encoder, TypeScript.encoder, hnone]; rfl
      | go => simp only [Sdk.encoder, Go.encoder, hnone]; rfl
      | rust => simp only [Sdk.encoder, Rust.encoder, hnone]; rfl
      | python =>
        simp only [Sdk.encoder, Python.encoder, hnone, Option.getD_none]
        rw [if_pos]
        rw [index, Python.isIndex, natural_index]
        rfl
    · have hindex : route.index place = n := by
        rw [SignedChunkRoute.index, hown]
        dsimp only
        rw [SignedChunkRoute.member, hmember]
        show (natural (n : ℚ)).getD place = n
        rw [natural_index, Option.getD_some]
      rw [hindex]
      cases sdk with
      | typescript =>
        simp only [Sdk.encoder, TypeScript.encoder, hmember, index, TypeScript.nonNegativeInteger,
          natural_index]
        rfl
      | go =>
        have hrange : (n : ℚ).den = 1 ∧ -2 ^ 63 ≤ (n : ℚ).num ∧ (n : ℚ).num < 2 ^ 63 := by
          rw [Rat.num_natCast]
          exact ⟨Rat.den_natCast n, by omega, by omega⟩
        simp only [Sdk.encoder, Go.encoder, hmember, index, Go.exactIntegerValue, if_pos hrange]
        rw [Rat.num_natCast]
        show some (if (0 : ℤ) ≤ n then Json.number ((n : ℤ) : ℚ) else _) = _
        rw [if_pos (Int.natCast_nonneg n)]
        norm_cast
      | rust =>
        simp only [Sdk.encoder, Rust.encoder, hmember, index, Rust.nonNegativeInteger,
          natural_index, Option.map_some]
        rw [Nat.min_eq_left (by omega)]
        rfl
      | python =>
        simp only [Sdk.encoder, Python.encoder, hmember, Option.getD_some]
        rw [if_pos]
        rw [index, Python.isIndex, natural_index]
        rfl

theorem python_group_falsy {value : Json} (h : ¬ Python.truthy value = true) :
    (Python.encoder platform).groupID (some value) = none := if_neg h

theorem group_eq (h : Regular routes) (sdk : Sdk) (hroute : route ∈ routes) :
    (sdk.encoder platform).groupID (route.member "multipart_group_id") = route.groupID := by
  have hgroup := h.groupID route hroute
  unfold SignedChunkRoute.groupID
  cases hmember : route.member "multipart_group_id" with
  | none => cases sdk <;> rfl
  | some value =>
    have htext := hgroup value hmember
    cases value with
    | string text =>
      have hne : text ≠ "" := of_decide_eq_true (htext.mp ⟨text, rfl⟩)
      cases sdk with
      | typescript => exact (if_neg hne).symm
      | go => rfl
      | rust => rfl
      | python =>
        show (if Python.truthy (.string text) then some text else none) = _
        rw [if_pos (htext.mp ⟨text, rfl⟩)]
        exact (if_neg hne).symm
    | _ =>
      have hfalse : ¬ Python.truthy _ = true := fun htrue => by
        obtain ⟨text, hsame⟩ := htext.mpr htrue
        cases hsame
      cases sdk with
      | typescript => rfl
      | go => rfl
      | rust => rfl
      | python => exact python_group_falsy hfalse

theorem sent_text (h : Regular routes) (sdk : Sdk) (hroute : route ∈ routes) :
    (sdk.encoder platform).sentText route.expiresAt = route.expiresAt := by
  obtain ⟨hnull, hempty⟩ := h.expiresAt route hroute
  generalize route.expiresAt = field at hnull hempty ⊢
  cases field with
  | missing => cases sdk <;> rfl
  | null => exact absurd rfl hnull
  | value text =>
    cases sdk with
    | go => exact if_neg fun htext => hempty (congrArg Field.value htext)
    | typescript => rfl
    | python => rfl
    | rust => rfl

theorem sent_headers (sdk : Sdk) {field : Field Headers}
    (hempty : field.get.map Subtype.val ≠ some [])
    (hnull : field ≠ .null) : (sdk.encoder platform).sentHeaders field = field := by
  cases field with
  | missing => cases sdk <;> rfl
  | null => exact absurd rfl hnull
  | value headers =>
    cases sdk with
    | go => exact if_neg fun hnone => hempty (congrArg some hnone)
    | typescript => rfl
    | python => rfl
    | rust => rfl

theorem headers_of_first (h : Regular routes)
    (hfirst : route ∈ firstUses (Rust.encoder platform).sourceKey routes) :
    route.headers ≠ .null := by
  intro hnull
  obtain ⟨earlier, later, hsplit, hnew⟩ := mem_of_mem_firstUses hfirst
  obtain ⟨first, hin, hsame, -⟩ := h.nullHeaders earlier route later hsplit hnull
  apply hnew
  rw [← (rust_key platform first route).mpr hsame]
  exact List.mem_map_of_mem hin

theorem mem_of_first {e : Encoder} (hfirst : route ∈ firstUses e.sourceKey routes) :
    route ∈ routes := by
  obtain ⟨earlier, later, hsplit, -⟩ := mem_of_mem_firstUses hfirst
  rw [hsplit]
  exact List.mem_append_right _ (List.mem_cons_self ..)

theorem agrees_of_regular (platform : Platform) (h : Regular routes) : Agrees platform routes := by
  have hexists : ((Rust.encoder platform).compactSignedRoutes routes).isSome := by
    rw [Encoder.compactSignedRoutes, Option.isSome_map]
    refine Encoder.isSome_fold fun place route hroute => ?_
    rw [Encoder.compactRoute, Option.isSome_map]
    exact Option.isSome_iff_exists.mpr ⟨_, delivery_eq h .rust (List.mem_of_getElem? hroute) place⟩
  obtain ⟨batch, hbatch⟩ := Option.isSome_iff_exists.mp hexists
  have hencodes := Encoder.encodes_of_compact hbatch
  refine ⟨batch, fun sdk => Encoder.compact_eq_some.mpr ?_,
    hencodes.lossless (fun route hroute => ?_) ?_, ?_,
    hencodes.inOrder⟩
  · refine hencodes.of_like (fun route hroute route' hroute' => ?_) (fun route hfirst n => ?_)
      fun route hroute n place => ?_
    · rw [rust_key, key_iff h sdk hroute hroute']
    · have hroute := mem_of_first hfirst
      have hheaders (sdk : Sdk) : (sdk.encoder platform).sentHeaders route.headers =
          route.headers :=
        sent_headers sdk (h.headers route hroute) (headers_of_first h hfirst)
      rw [Encoder.sourceChunk, Encoder.sourceChunk, sent_text h sdk hroute, hheaders sdk]
      exact congrArg₂ (SourceChunk.mk n _ _ _ _ _) (sent_text h .rust hroute).symm
        (hheaders .rust).symm
    · obtain ⟨hnull, hempty⟩ := h.destHeaders route hroute
      have hgroup (sdk : Sdk) : (sdk.encoder platform).groupID
          ((withoutIdentity (route.metadata.get.getD [])).get "multipart_group_id") =
            route.groupID := by
        rw [Encoder.withoutIdentity_get _ (by decide)]
        exact group_eq h sdk hroute
      have hentry (sdk : Sdk) : (sdk.encoder platform).compactRoute n place route = some
          ⟨n, route.destinationID, index (route.index place), route.destURL, route.expiresAt,
            route.destHeaders,
            route.groupID,
              if (if route.groupID.getD "" = "" then withoutIdentity
                (route.metadata.get.getD []) else
              attemptOnly (withoutIdentity (route.metadata.get.getD []))) = [] then none else
              some (if route.groupID.getD "" = "" then withoutIdentity
                (route.metadata.get.getD []) else
                attemptOnly (withoutIdentity (route.metadata.get.getD [])))⟩ := by
        rw [Encoder.compactRoute, delivery_eq h sdk hroute, Option.map_some, sent_text h sdk hroute,
          sent_headers sdk hempty hnull]
        dsimp only
        rw [hgroup sdk]
      exact (hentry sdk).trans (hentry .rust).symm
  · refine ⟨?_, ?_, ?_, fun place => delivery_eq h .rust hroute place, group_eq h .rust hroute⟩
    · exact congrArg Field.get (sent_text h .rust hroute)
    · show (Field.present route.headers).get = _
      cases route.headers <;> rfl
    · show (Field.present route.destHeaders).get = _
      cases route.destHeaders <;> rfl
  · exact fun route _ route' _ hkeys => (rust_key platform route route').mp hkeys
  · exact hencodes.shares.mpr fun route _ route' _ => rust_key platform route route'

theorem go_sent_headers {headers : Headers} {field : Field Headers}
    (hsent : Go.encoder.sentHeaders field = .value headers) :
    headers.1 ≠ [] := by
  cases field with
  | missing => cases hsent
  | null => cases hsent
  | value sent =>
    by_cases hnone : sent.1 = []
    · rw [show Go.encoder.sentHeaders (.value sent) = .missing from if_pos hnone] at hsent
      cases hsent
    · rw [show Go.encoder.sentHeaders (.value sent) = .value sent from if_neg hnone] at hsent
      cases hsent
      exact hnone

section Common
variable {batch : CompactSignedRouteBatch}
    (h : ∀ sdk : Sdk, (sdk.encoder platform).Encodes routes batch)
include h

theorem common_entry (hroute : route ∈ routes) : ∃ place compact, ∀ sdk : Sdk, ∃ n,
    (sdk.encoder platform).Entry n place route compact := by
  obtain ⟨place, hplace⟩ := List.mem_iff_getElem?.mp hroute
  obtain ⟨compact, hcompact, -⟩ := (h .rust).routes place route hplace
  refine ⟨place, compact, fun sdk => ?_⟩
  obtain ⟨other, hother, hencoded⟩ := (h sdk).routes place route hplace
  obtain rfl := Option.some.inj (hcompact.symm.trans hother)
  exact ⟨_, Encoder.entry_of_compactRoute hencoded⟩

theorem common_expiresAt (hroute : route ∈ routes) : route.expiresAt ≠ .null ∧
    route.expiresAt ≠ .value "" := by
  obtain ⟨place, compact, hentry⟩ := common_entry h hroute
  obtain ⟨n, htypescript⟩ := hentry .typescript
  obtain ⟨m, hrust⟩ := hentry .rust
  obtain ⟨k, hgo⟩ := hentry .go
  have hsent : compact.expiresAt = route.expiresAt := htypescript.expiresAt
  refine ⟨fun hnull => ?_, fun hempty => ?_⟩
  · have hother := hsent.symm.trans hrust.expiresAt
    rw [hnull] at hother
    cases hother
  · have hother := hsent.symm.trans hgo.expiresAt
    rw [hempty] at hother
    cases hother

theorem common_destHeaders (hroute : route ∈ routes) :
    route.destHeaders ≠ .null ∧ route.destHeaders.get.map Subtype.val ≠ some [] := by
  obtain ⟨place, compact, hentry⟩ := common_entry h hroute
  obtain ⟨n, htypescript⟩ := hentry .typescript
  obtain ⟨m, hrust⟩ := hentry .rust
  obtain ⟨k, hgo⟩ := hentry .go
  have hsent : compact.destHeaders = route.destHeaders := htypescript.destHeaders
  refine ⟨fun hnull => ?_, fun hempty => ?_⟩
  · have hother := hsent.symm.trans hrust.destHeaders
    rw [hnull] at hother
    cases hother
  · have hother := hgo.destHeaders.symm.trans hsent
    cases hfield : route.destHeaders with
    | missing =>
      rw [hfield] at hempty
      cases hempty
    | null =>
      rw [hfield] at hempty
      cases hempty
    | value headers =>
      rw [hfield] at hempty hother
      exact go_sent_headers hother (Option.some.inj hempty)

theorem common_deliveryIndex (hroute : route ∈ routes) : route.deliveryIndex ≠ .null ∧
    (route.deliveryIndex = .missing → ∀ value ∈ route.member "delivery_index", ∃ n : ℕ,
      value = index n) := by
  obtain ⟨place, compact, hentry⟩ := common_entry h hroute
  obtain ⟨n, hpython⟩ := hentry .python
  obtain ⟨m, hrust⟩ := hentry .rust
  have hfound := hpython.deliveryIndex
  have hrustIndex := hrust.deliveryIndex
  simp only [Sdk.encoder, Python.encoder, Rust.encoder] at hfound hrustIndex
  refine ⟨fun hnull => ?_, fun hmissing value hmember => ?_⟩
  · rw [hnull] at hfound
    cases hfound
  · rw [hmissing] at hfound
    have hvalue : (route.metadata.get.getD []).get "delivery_index" = some value := hmember
    rw [hvalue, Option.getD_some] at hfound
    obtain ⟨-, hsame⟩ := Option.ite_none_right_eq_some.mp hfound
    exact ⟨_, (Option.some.inj hsame).trans (Option.some.inj hrustIndex).symm⟩

theorem common_groupID (hroute : route ∈ routes) : ∀ value ∈ route.member "multipart_group_id",
    (∃ text, value = .string text) ↔ Python.truthy value = true := by
  intro value hmember
  obtain ⟨place, compact, hentry⟩ := common_entry h hroute
  obtain ⟨n, htypescript⟩ := hentry .typescript
  obtain ⟨m, hrust⟩ := hentry .rust
  obtain ⟨k, hpython⟩ := hentry .python
  have hgroups := htypescript.multipartGroupID.symm.trans hrust.multipartGroupID
  have hshown := htypescript.multipartGroupID.symm.trans hpython.multipartGroupID
  rw [Option.mem_def.mp hmember] at hgroups hshown
  constructor
  · rintro ⟨text, rfl⟩
    refine decide_eq_true fun hempty => ?_
    have hnone : (Rust.encoder platform).groupID (some (.string text)) = none := if_pos hempty
    cases hgroups.trans hnone
  · intro htrue
    cases value with
    | string text => exact ⟨text, rfl⟩
    | _ =>
      -- what `str` makes of it is sent by Python only
      have hstr : (Python.encoder platform).groupID (some _) = some _ := if_pos htrue
      cases hshown.trans hstr

theorem common_chunk (hroute : route ∈ routes) (sdk : Sdk) :
    ∃ first ∈ firstUses (sdk.encoder platform).sourceKey routes,
    (sdk.encoder platform).sourceKey first = (sdk.encoder platform).sourceKey route ∧ ∀ sdk' : Sdk,
      ∃ first' ∈ firstUses (sdk'.encoder platform).sourceKey routes,
        (sdk'.encoder platform).sourceKey first' = (sdk'.encoder platform).sourceKey route ∧
        (sdk.encoder platform).sentHeaders first.headers =
          (sdk'.encoder platform).sentHeaders first'.headers := by
  obtain ⟨place, hplace⟩ := List.mem_iff_getElem?.mp hroute
  obtain ⟨compact, first, hcompact, -, -, hfirst, hkey, hfound⟩ := (h sdk).entry hplace
  refine ⟨first, hfirst, hkey, fun sdk' => ?_⟩
  obtain ⟨compact', first', hcompact', -, -, hfirst', hkey', hfound'⟩ := (h sdk').entry hplace
  obtain rfl := Option.some.inj (hcompact.symm.trans hcompact')
  have hchunk := Option.some.inj (hfound.symm.trans hfound')
  exact ⟨first', hfirst', hkey', congrArg SourceChunk.headers hchunk⟩

theorem common_headers (hroute : route ∈ routes) : route.headers.get.map Subtype.val ≠ some [] := by
  intro hempty
  obtain ⟨first, -, hkey, hothers⟩ := common_chunk h hroute .rust
  obtain ⟨first', -, -, hsent⟩ := hothers .go
  have hsame := ((rust_key platform first route).mp hkey).headers
  obtain ⟨headers, hheaders, hnone⟩ := Option.map_eq_some_iff.mp hempty
  rw [hheaders] at hsame
  cases hfield : first.headers with
  | missing =>
    rw [hfield] at hsame
    exact hsame
  | null =>
    rw [hfield] at hsame
    exact hsame
  | value own =>
    rw [hfield] at hsame hsent
    have hown : own.1.Perm headers.1 := hsame
    rw [hnone] at hown
    exact go_sent_headers hsent.symm hown.eq_nil

theorem common_nullHeaders {earlier later : List SignedChunkRoute}
    (hsplit : routes = earlier ++ route :: later)
    (hnull : route.headers = .null) : ∃ first ∈ earlier, SameSource first route ∧
      first.headers = .missing := by
  have hroute : route ∈ routes := by
    rw [hsplit]
    exact List.mem_append_right _ (List.mem_cons_self ..)
  obtain ⟨first, hfirst, hkey, hothers⟩ := common_chunk h hroute .typescript
  obtain ⟨first', -, -, hsent⟩ := hothers .rust
  have hkept : first.headers = Field.present first'.headers := hsent
  have hnever : Field.present first'.headers ≠ .null := by
    cases first'.headers <;> exact nofun
  obtain ⟨hsame, hlisted⟩ := typescript_key hkey
  have hmissing : first.headers = .missing := by
    cases hfield : first.headers with
    | missing => rfl
    | null => exact absurd (hkept.symm.trans hfield) hnever
    | value headers =>
      rw [hfield, hnull] at hlisted
      cases hlisted
  rcases eq_or_mem_earlier hsplit hfirst hkey with rfl | hearlier
  · rw [hnull] at hmissing
    cases hmissing
  · exact ⟨first, hearlier, hsame, hmissing⟩

end Common

theorem regular_of_agrees (h : Agrees platform routes) : Regular routes := by
  obtain ⟨batch, hall, -, hshares, -⟩ := h
  have hencodes (sdk : Sdk) : (sdk.encoder platform).Encodes routes batch :=
    Encoder.encodes_of_compact (hall sdk)
  refine ⟨fun route hroute => common_expiresAt hencodes hroute, fun route hroute =>
    common_destHeaders hencodes hroute,
    fun route hroute => common_headers hencodes hroute, fun earlier route later =>
      common_nullHeaders hencodes,
    fun route hroute => common_deliveryIndex hencodes hroute, fun route hroute =>
      common_groupID hencodes hroute,
    fun route hroute route' hroute' hsame => ?_⟩
  have hkey := (hencodes .typescript).shares.mp hshares route hroute route' hroute'
  exact (typescript_key (hkey.mpr hsame)).2

/-- The four SDKs send one batch for the routes, from which every route is read back, exactly where
the routes are regular. -/
theorem agrees_iff_regular (platform : Platform) (routes : List SignedChunkRoute) :
    Agrees platform routes ↔ Regular routes :=
  ⟨regular_of_agrees, agrees_of_regular platform⟩

def samplePlatform : Platform where
  number
    | .null => some 0
    | .bool value => some (if value then 1 else 0)
    | _ => none
  parse := Text.decimal
  str
    | .null => "None"
    | .bool true => "True"
    | _ => "value"

def sampleRoute (destinationID : String) (headers : Headers) : SignedChunkRoute where
  sourceID := "source"
  destinationID
  chunkIndex := 0
  deliveryIndex := .missing
  sourceURL := "https://source.example/file"
  destURL := "https://dest.example/part"
  sourceOffset := 0
  chunkSize := 512
  expiresAt := .missing
  headers := .value headers
  destHeaders := .missing
  metadata := .missing
  exact := nofun

def sampleHeaders : Headers := ⟨[("if-match", "tag"), ("range", "bytes=0-511")], by decide⟩

def sampleReordered : Headers := ⟨[("range", "bytes=0-511"), ("if-match", "tag")], by decide⟩

/-- The TypeScript SDK sends their source twice, the others once. -/
theorem sample_differs : SameSource (sampleRoute "first" sampleHeaders)
    (sampleRoute "second" sampleReordered) ∧
    ¬ Agrees samplePlatform [sampleRoute "first" sampleHeaders,
      sampleRoute "second" sampleReordered] := by
  have hsame : SameSource (sampleRoute "first" sampleHeaders)
      (sampleRoute "second" sampleReordered) := by
    refine ⟨rfl, rfl, rfl, rfl, rfl, rfl, ?_⟩
    exact List.Perm.swap _ _ _
  refine ⟨hsame, fun h => ?_⟩
  have horder := (regular_of_agrees h).order _ (List.mem_cons_self ..) _ (by simp) hsame
  exact absurd horder (by decide)

end Beam.Batch
