import Mathlib.Data.Set.Finite.Lattice
import Mathlib.Order.Interval.Finset.Nat
import Mathlib.Order.Interval.Set.Defs
import BeamSdk.Library.Orbit
import BeamSdk.Rust.HuggingFace

/-! The parts of a multipart upload that the Rust SDK lists page by page: whether the pages end, and
what they give. -/

namespace Beam.Rust.ListParts
open Rust.HuggingFace (parse parseDigits maxU64)
open Orbit

structure MultipartPart where
  partNumber : ℕ
  etag : String
  size : ℕ
  deriving DecidableEq

structure PartElement where
  partNumber : Option String
  etag : Option String
  size : Option String

structure Page where
  parts : List PartElement
  isTruncated : Option String
  nextPartNumberMarker : Option String

abbrev Server := Option ℕ → Except String Page

def readPart (part : PartElement) : Option MultipartPart :=
  match part.partNumber.bind (parse maxU64), part.etag.filter (· ≠ ""),
    part.size.bind (parse maxU64) with
  | some partNumber, some etag, some size =>
      if 0 < partNumber then some ⟨partNumber, etag, size⟩ else none
  | _, _, _ => none

inductive Turn
  | returns (result : Except String (List MultipartPart))
  | next (marker : ℕ) (parts : List MultipartPart)

def turn (server : Server) (marker : Option ℕ) (parts : List MultipartPart) : Turn :=
  match server marker with
  | .error error => .returns (.error error)
  | .ok page =>
    match page.parts.mapM readPart with
    | none => .returns (.error "invalid multipart part metadata")
    | some more =>
      if page.isTruncated ≠ some "true" then .returns (.ok (parts ++ more))
      else
        match page.nextPartNumberMarker.bind (parse maxU64) with
        | some next =>
          if some next ≠ marker then .next next (parts ++ more)
            else .returns (.error "invalid multipart pagination")
        | none => .returns (.error "invalid multipart pagination")

def listMultipartParts (server : Server) : ℕ → Option ℕ → List MultipartPart →
    Option (Except String (List MultipartPart))
  | 0, _, _ => none
  | requests + 1, marker, parts =>
    match turn server marker parts with
    | .returns result => some result
    | .next next parts => listMultipartParts server requests (some next) parts

def Returns (server : Server) (result : Except String (List MultipartPart)) : Prop :=
  ∃ requests, listMultipartParts server requests none [] = some result

def advance (server : Server) (marker : Option ℕ) : Option (Option ℕ) :=
  match turn server marker [] with
  | .returns _ => none
  | .next next _ => some (some next)

/-- Its pages are the parts behind the marker, in order; a page that is truncated has some, and its
next marker is the last of them. -/
def Lists (server : Server) (uploaded : List MultipartPart) : Prop :=
  (uploaded.Pairwise fun part part' => part.partNumber < part'.partNumber) ∧
    (∀ part ∈ uploaded, 0 < part.partNumber) ∧
    ∀ marker : Option ℕ, ∃ page shown rest, server marker = .ok page ∧
      page.parts.mapM readPart = some shown ∧
      (uploaded.filter fun part => marker.getD 0 < part.partNumber) = shown ++ rest ∧
      (page.isTruncated = some "true" ↔ rest ≠ []) ∧
      (rest ≠ [] → ∃ last ∈ shown.getLast?,
        page.nextPartNumberMarker.bind (parse maxU64) = some last.partNumber)

variable {server : Server} {marker : Option ℕ} {parts : List MultipartPart}

theorem advance_eq (server : Server) (marker : Option ℕ) (parts : List MultipartPart) :
    advance server marker = match turn server marker parts with
      | .returns _ => none
      | .next next _ => some (some next) := by
  unfold advance turn
  cases server marker with
  | error error => rfl
  | ok page =>
    simp only
    cases page.parts.mapM readPart with
    | none => rfl
    | some more =>
      simp only
      by_cases hlast : page.isTruncated ≠ some "true"
      · rw [if_pos hlast, if_pos hlast]
      · rw [if_neg hlast, if_neg hlast]
        cases page.nextPartNumberMarker.bind (parse maxU64) with
        | none => rfl
        | some next =>
          simp only
          by_cases hnew : some next ≠ marker
          · rw [if_pos hnew, if_pos hnew]
          · rw [if_neg hnew, if_neg hnew]

theorem listMultipartParts_none (requests : ℕ) (marker : Option ℕ) (parts : List MultipartPart) :
    listMultipartParts server requests marker parts = none ↔
      orbit (advance server) marker requests ≠ none := by
  induction requests generalizing marker parts with
  | zero => exact ⟨fun _ => nofun, fun _ => rfl⟩
  | succ requests ih =>
    have hadvance := advance_eq server marker parts
    unfold listMultipartParts
    cases hturn : turn server marker parts with
    | returns result =>
      rw [hturn] at hadvance
      simp only [reduceCtorEq, false_iff, not_not]
      rw [Nat.add_comm, orbit_add]
      show (advance server marker).bind _ = none
      rw [hadvance]
      rfl
    | next next more =>
      rw [hturn] at hadvance
      simp only
      rw [orbit_succ hadvance]
      exact ih (some next) more

theorem returns_iff_ends : (∃ result, Returns server result) ↔ Ends (advance server) none := by
  constructor
  · rintro ⟨result, requests, hreturns⟩
    refine ⟨requests, Classical.byContradiction fun hsome => ?_⟩
    rw [(listMultipartParts_none requests none []).mpr hsome] at hreturns
    cases hreturns
  · rintro ⟨requests, hnone⟩
    cases hresult : listMultipartParts server requests none [] with
    | none => exact absurd hnone ((listMultipartParts_none requests none []).mp hresult)
    | some result => exact ⟨result, requests, hresult⟩

theorem parse_le {max : ℕ} {text : String} {n : ℕ} (h : parse max text = some n) : n ≤ max := by
  have hdigits : ∀ {digits : List Char}, parseDigits max digits = some n → n ≤ max := by
    intro digits h
    unfold parseDigits at h
    simp only at h
    obtain ⟨-, h⟩ := Option.ite_none_left_eq_some.mp h
    obtain ⟨-, h⟩ := Option.ite_none_right_eq_some.mp h
    obtain ⟨hle, heq⟩ := Option.ite_none_right_eq_some.mp h
    cases heq
    exact hle
  exact hdigits h

theorem advance_le {next : Option ℕ} (h : advance server marker = some next) : ∃ n ≤ maxU64,
    next = some n := by
  unfold advance at h
  split at h
  · cases h
  · rename_i next more hturn
    cases h
    unfold turn at hturn
    cases hpage : server marker with
    | error error =>
      rw [hpage] at hturn
      cases hturn
    | ok page =>
      rw [hpage] at hturn
      simp only at hturn
      split at hturn
      · cases hturn
      · split at hturn
        · cases hturn
        · split at hturn
          · rename_i n hnext
            split at hturn
            · cases hturn
              obtain ⟨text, -, hparse⟩ := Option.bind_eq_some_iff.mp hnext
              exact ⟨next, parse_le hparse, rfl⟩
            · cases hturn
          · cases hturn

theorem orbit_le {k : ℕ} {marker : Option ℕ} (h : orbit (advance server) none k = some marker) :
    marker ∈ insert none (some '' Set.Iic maxU64) := by
  cases k with
  | zero =>
    cases h
    exact Set.mem_insert _ _
  | succ k =>
    obtain ⟨before, -, hadvance⟩ := Option.bind_eq_some_iff.mp h
    obtain ⟨n, hle, rfl⟩ := advance_le hadvance
    exact Set.mem_insert_of_mem _ ⟨n, hle, rfl⟩

theorem ends_iff_new : Ends (advance server) none ↔ ¬ Revisits (advance server) none :=
  ends_iff (((Set.finite_Iic maxU64).image some).insert none) fun _ _ => orbit_le

theorem filter_behind {before behind : List MultipartPart} {last : MultipartPart}
    (h : (before ++ last :: behind).Pairwise fun part part' => part.partNumber < part'.partNumber) :
    (before ++ last :: behind).filter (fun part => last.partNumber < part.partNumber) = behind := by
  obtain ⟨-, hbehind, hbefore⟩ := List.pairwise_append.mp h
  have hnone : before.filter (fun part => last.partNumber < part.partNumber) = [] := by
    refine List.filter_eq_nil_iff.mpr fun part hpart => ?_
    have hlt := hbefore part hpart last List.mem_cons_self
    simp only [decide_eq_true_eq]
    omega
  have hall : behind.filter (fun part => last.partNumber < part.partNumber) = behind :=
    List.filter_eq_self.mpr fun part hpart =>
      decide_eq_true (List.rel_of_pairwise_cons hbehind hpart)
  rw [List.filter_append, hnone, List.nil_append, List.filter_cons_of_neg (by simp), hall]

theorem lists_from {uploaded : List MultipartPart} (h : Lists server uploaded) {n : ℕ}
    {marker : Option ℕ}
    {parts rest : List MultipartPart} (hlength : rest.length < n)
    (huploaded : uploaded = parts ++ rest)
    (hfilter : (uploaded.filter fun part => marker.getD 0 < part.partNumber) = rest) :
    ∃ requests, listMultipartParts server requests marker parts = some (.ok uploaded) := by
  induction n generalizing marker parts rest with
  | zero => exact absurd hlength (Nat.not_lt_zero _)
  | succ n ih =>
    obtain ⟨page, shown, behind, hpage, hshown, hsplit, htruncated, hnext⟩ := h.2.2 marker
    have hrest : rest = shown ++ behind := hfilter.symm.trans hsplit
    have hturn : turn server marker parts =
        if page.isTruncated ≠ some "true" then .returns (.ok (parts ++ shown))
        else
          match page.nextPartNumberMarker.bind (parse maxU64) with
          | some next =>
            if some next ≠ marker then .next next (parts ++ shown)
              else .returns (.error "invalid multipart pagination")
          | none => .returns (.error "invalid multipart pagination") := by
      unfold turn
      rw [hpage]
      simp only [hshown]
    by_cases hlast : behind = []
    · rw [if_pos (htruncated.not.mpr (not_not_intro hlast))] at hturn
      refine ⟨1, ?_⟩
      unfold listMultipartParts
      rw [hturn, huploaded, hrest, hlast, List.append_nil]
    · obtain ⟨last, hmem, hnumber⟩ := hnext hlast
      obtain ⟨before, rfl⟩ := List.getLast?_eq_some_iff.mp hmem
      have hbeyond : marker.getD 0 < last.partNumber := by
        have hin : last ∈ uploaded.filter fun part => marker.getD 0 < part.partNumber := by
          rw [hsplit]
          simp
        exact of_decide_eq_true (List.mem_filter.mp hin).2
      have hnew : some last.partNumber ≠ marker := by
        rintro rfl
        exact Nat.lt_irrefl _ hbeyond
      rw [if_neg (not_not_intro (htruncated.mpr hlast)), hnumber] at hturn
      simp only [if_pos hnew] at hturn
      have hwhole : uploaded = (parts ++ before) ++ last :: behind := by
        rw [huploaded, hrest]
        simp
      have hshort : behind.length < n := by
        rw [hrest] at hlength
        simp only [List.length_append, List.length_cons, List.length_nil] at hlength
        omega
      have hgone : uploaded = (parts ++ (before ++ [last])) ++ behind := by
        rw [hwhole]
        simp
      have hleft : (uploaded.filter fun part => (some last.partNumber).getD 0 < part.partNumber) =
          behind := by
        rw [hwhole]
        exact filter_behind (hwhole ▸ h.1)
      obtain ⟨requests, hreturns⟩ := ih hshort hgone hleft
      refine ⟨requests + 1, ?_⟩
      unfold listMultipartParts
      rw [hturn]
      exact hreturns

/-- The listing ends exactly where no marker comes twice; of a provider that lists its parts, it is
the parts. -/
theorem parts_listed_iff (server : Server) :
    ((∃ result, Returns server result) ∧ ∀ uploaded, Lists server uploaded →
      Returns server (.ok uploaded)) ↔
      ¬ Revisits (advance server) none := by
  rw [← ends_iff_new, ← returns_iff_ends]
  refine and_iff_left fun uploaded h => ?_
  refine lists_from h (Nat.lt_succ_self uploaded.length) rfl ?_
  exact List.filter_eq_self.mpr fun part hpart => decide_eq_true (h.2.1 part hpart)

def alternating : Server := fun marker =>
    .ok ⟨[], some "true", some (if marker = some 1 then "2" else "1")⟩

theorem alternating_endless : ¬ ∃ result, Returns alternating result :=
  returns_iff_ends.not.mpr (Revisits.not_ends ⟨1, 3, some 1, by decide, rfl, rfl⟩)

end Beam.Rust.ListParts
