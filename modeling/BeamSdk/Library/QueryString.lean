import Mathlib.Data.List.TakeWhile
import BeamSdk.Library.Uri

/-! The query of a URL: names and values written with escapes, and read back as the octets they
stand for. -/

namespace Beam.QueryString

abbrev Pair := List Char × List Char

def renderPair (keep : ℕ → Bool) (pair : Pair) : List Char :=
  if pair.2.isEmpty then Uri.encode keep pair.1
    else Uri.encode keep pair.1 ++ '=' :: Uri.encode keep pair.2

def render (keep : ℕ → Bool) (pairs : List Pair) : List Char :=
    ['&'].intercalate (pairs.map (renderPair keep))

def readPart (part : List Char) : List ℕ × List ℕ :=
  (Uri.decodeOctets (part.takeWhile (· ≠ '=')), Uri.decodeOctets (part.dropWhile (· ≠ '=')).tail)

def read (query : List Char) : List (List ℕ × List ℕ) :=
  ((query.splitOn '&').filter fun part => !part.isEmpty).map readPart

def octets (pair : Pair) : List ℕ × List ℕ := (Uri.octets pair.1, Uri.octets pair.2)

structure Separates (keep : ℕ → Bool) : Prop extends Uri.Keeps keep where
  ampersand : keep 38 = false
  equals : keep 61 = false

section
variable {keep : ℕ → Bool} (hkeep : Separates keep)
include hkeep

theorem notMem_encode {c : Char} (hc : c = '&' ∨ c = '=') (text : List Char) :
    c ∉ Uri.encode keep text := by
  have hplain : c ≠ '%' ∧ c.isAlphanum = false ∧ keep c.toNat = false := by
    rcases hc with rfl | rfl
    · exact ⟨by decide, by decide, hkeep.ampersand⟩
    · exact ⟨by decide, by decide, hkeep.equals⟩
  obtain ⟨hpercent, halnum, hout⟩ := hplain
  exact Uri.notMem_encode hpercent halnum (fun _ hn => hkeep.ofNat_ne hout hn) text

theorem encode_eq_nil {text : List Char} (h : Uri.encode keep text = []) : text = [] := by
  have hdecode := Uri.decodeOctets_encode_self hkeep.toKeeps text
  rw [h, Uri.decodeOctets] at hdecode
  exact Uri.octets_injective hdecode.symm

theorem readPart_renderPair (pair : Pair) : readPart (renderPair keep pair) = octets pair := by
  have hdecode := Uri.decodeOctets_encode_self hkeep.toKeeps
  have hpass : ∀ c ∈ Uri.encode keep pair.1, decide (c ≠ '=') = true := by
    intro c hc
    refine decide_eq_true fun he => ?_
    exact notMem_encode hkeep (.inr he) pair.1 hc
  unfold renderPair readPart octets
  by_cases hempty : pair.2.isEmpty = true
  · have hnil : pair.2 = [] := List.isEmpty_iff.mp hempty
    rw [if_pos hempty, List.takeWhile_eq_self_iff.mpr hpass,
      List.dropWhile_eq_nil_iff.mpr hpass, hnil,
      hdecode]
    rfl
  · rw [if_neg hempty, List.takeWhile_append_of_pos hpass, List.takeWhile_cons_of_neg (by decide),
      List.dropWhile_append_of_pos hpass, List.dropWhile_cons_of_neg (by decide), List.append_nil,
        List.tail_cons,
      hdecode, hdecode]

theorem read_render {pairs : List Pair} (hnames : ∀ pair ∈ pairs, pair.1 ≠ []) :
    read (render keep pairs) = pairs.map octets := by
  by_cases hnil : pairs = []
  · subst hnil
    rfl
  · have hparts : ∀ part ∈ pairs.map (renderPair keep), '&' ∉ part ∧ part ≠ [] := by
      intro part hpart
      obtain ⟨pair, hpair, rfl⟩ := List.mem_map.mp hpart
      have hname : Uri.encode keep pair.1 ≠ [] := fun h => hnames pair hpair (encode_eq_nil hkeep h)
      have hfree : ∀ text, '&' ∉ Uri.encode keep text := notMem_encode hkeep (.inl rfl)
      unfold renderPair
      split_ifs
      · exact ⟨hfree pair.1, hname⟩
      · refine ⟨fun hmem => ?_, List.append_ne_nil_of_left_ne_nil hname _⟩
        rcases List.mem_append.mp hmem with hmem | hmem
        · exact hfree pair.1 hmem
        · exact hfree pair.2 ((List.mem_cons.mp hmem).resolve_left (by decide))
    have hfull : (pairs.map (renderPair keep)).filter (fun part => !part.isEmpty) =
        pairs.map (renderPair keep) := by
      refine List.filter_eq_self.mpr fun part hpart => ?_
      rw [Bool.not_eq_true', List.isEmpty_eq_false_iff]
      exact (hparts part hpart).2
    rw [read, render, List.splitOn_intercalate _ (fun part hpart => (hparts part hpart).1)
      (by simpa using hnil), hfull,
      List.map_map]
    exact List.map_congr_left fun pair _ => readPart_renderPair hkeep pair

end

end Beam.QueryString
