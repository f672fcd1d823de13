import BeamSdk.Web.Sse

/-! How a stream of server-sent events may be cut into chunks. A cut between a CR and its LF ends a
frame early, and this is the only harm a cut can do. -/

namespace Beam.Web.Sse

def Line.pieces (line : Line) : List Text := if line.cut then [line.text, []] else [line.text]

/-- The frames that an empty line ends, and what is left, from one of which some lines are read
already. -/
def frames (frame : List Line) : List Line → List (List Line) × List Line
  | [] => ([], frame)
  | line :: rest =>
    if line.text = [] then (frame :: (frames [] rest).1, (frames [] rest).2)
      else frames (frame ++ [line]) rest

def parts (frame : List Line) : List (List Text) × List Text :=
  frame.foldl (fun (ended, part) line =>
    if line.cut then (ended ++ [part ++ [line.text]], []) else (ended, part ++ [line.text]))
      ([], [])

def Intact (frame : List Line) : Prop :=
  values "data" (frame.map Line.text) ≠ [] → ∃ part ∈ (parts frame).1 ++ [(parts frame).2],
    values "data" part = values "data" (frame.map Line.text) ∧
      eventType part = eventType (frame.map Line.text)
      ∧ lastID part = lastID (frame.map Line.text)

/-- Cuts between a CR and its LF leave every frame intact and end no part with data in what is
left. -/
def Unharmed (chunks : List Text) : Prop :=
  (∀ frame ∈ (frames [] (lines [] (marked chunks))).1, Intact frame)
    ∧ ∀ part ∈ (parts (frames [] (lines [] (marked chunks))).2).1, values "data" part = []

/-- What the chunks are normalized to: a LF that begins a chunk is not seen to follow a CR. -/
def merge : List (UInt16 × Bool) → Text
  | [] => []
  | [(c, _)] => [if c = cr then lf else c]
  | (c, _) :: (d, begins) :: rest =>
    if c = cr ∧ d = lf ∧ begins = false then lf :: merge rest
    else (if c = cr then lf else c) :: merge ((d, begins) :: rest)

theorem merge_append (text : Text) {later : List (UInt16 × Bool)}
    (h : ∀ unit ∈ later.head?, unit.2 = true) :
    merge (text.map (·, false) ++ later) = normalize text ++ merge later := by
  induction text using normalize.induct with
  | case1 => rfl
  | case2 c =>
    cases later with
    | nil => rfl
    | cons unit later =>
      obtain ⟨d, begins⟩ := unit
      obtain rfl : begins = true := h _ rfl
      simp [merge, normalize]
  | case3 c d rest hboth ih =>
    obtain ⟨rfl, rfl⟩ := hboth
    simp only [List.map_cons, List.cons_append, merge, normalize, and_self, if_true, ih]
  | case4 c d rest hboth ih =>
    have hmerge : ¬ (c = cr ∧ d = lf ∧ false = false) := by simpa using hboth
    simp only [List.map_cons, List.cons_append] at ih ⊢
    rw [merge, if_neg hmerge, normalize, if_neg hboth, ih, List.cons_append]

theorem merge_head (c : UInt16) (begins begins' : Bool) (rest : List (UInt16 × Bool)) :
    merge ((c, begins) :: rest) = merge ((c, begins') :: rest) := by
  cases rest <;> rfl

theorem merge_marked (chunks : List Text) : merge (marked chunks) = chunks.flatMap normalize := by
  have hhead : ∀ chunks : List Text, ∀ unit ∈ (marked chunks).head?, unit.2 = true := by
    intro chunks
    induction chunks with
    | nil => simp [marked]
    | cons chunk chunks ih =>
      cases chunk with
      | nil => exact ih
      | cons c rest => simp [marked]
  induction chunks with
  | nil => rfl
  | cons chunk chunks ih =>
    cases chunk with
    | nil => exact ih
    | cons c rest =>
      have hchunk : marked ((c :: rest) :: chunks) = (c, true) ::
          (rest.map (·, false) ++ marked chunks) := rfl
      rw [hchunk, merge_head c true false, List.flatMap_cons, ← ih]
      exact merge_append (c :: rest) (hhead chunks)

theorem lfLines_merge (line : Text) (units : List (UInt16 × Bool)) :
    lfLines line (merge units) = (lines line units).flatMap Line.pieces := by
  have hcr : cr ≠ lf := by decide
  have hlf : ∀ begins rest, merge ((lf, begins) :: rest) = lf :: merge rest := by
    intro begins rest
    cases rest <;> simp [merge, hcr.symm]
  induction line, units using lines.induct with
  | case1 => rfl
  | case2 line c begins hends =>
    rcases hends with rfl | rfl <;> simp [merge, lfLines, lines, Line.pieces, hcr.symm]
  | case3 line c begins hends =>
    have hc : c ≠ cr ∧ c ≠ lf := by simpa using hends
    simp [merge, lfLines, lines, hc]
  | case4 line c _ d begins rest hboth ih =>
    obtain ⟨rfl, rfl⟩ := hboth
    rw [lines, if_pos ⟨rfl, rfl⟩, List.flatMap_cons, ← ih]
    cases begins with
    | false => simp [merge, lfLines, Line.pieces]
    | true => simp [merge, hlf, lfLines, Line.pieces]
  | case5 line c _ d begins rest hboth hends ih =>
    have hmerge : ¬ (c = cr ∧ d = lf ∧ begins = false) := fun h => hboth ⟨h.1, h.2.1⟩
    have hc : (if c = cr then lf else c) = lf := by
      rcases hends with rfl | rfl <;> simp
    rw [lines, if_neg hboth, if_pos hends, merge, if_neg hmerge, hc, lfLines, if_pos rfl, ih]
    rfl
  | case6 line c _ d begins rest hboth hends ih =>
    obtain ⟨hc, hc'⟩ := not_or.mp hends
    have hmerge : ¬ (c = cr ∧ d = lf ∧ begins = false) := fun h => hboth ⟨h.1, h.2.1⟩
    rw [lines, if_neg hboth, if_neg hends, merge, if_neg hmerge, if_neg hc, lfLines, if_neg hc', ih]

theorem pushAll_dispatch (chunks : List Text) :
    pushAll [] chunks = dispatch [] ((lines [] (marked chunks)).flatMap Line.pieces) := by
  rw [pushAll_eq settled_nil, splitFrom_dispatch reads_nil, ← merge_marked, lfLines_merge]

theorem lines_unmarked (line : Text) (units : List (UInt16 × Bool)) :
    lines line (units.map fun unit => (unit.1, false)) = (lines line units).map fun line =>
      ⟨line.text, false⟩ := by
  induction line, units using lines.induct with
  | case1 => rfl
  | case2 line c begins hends => simp [lines, hends]
  | case3 line c begins hends => simp [lines, hends]
  | case4 line c _ d begins rest hboth ih => simp [lines, hboth, ih]
  | case5 line c _ d begins rest hboth hends ih =>
    simp only [List.map_cons] at ih ⊢
    simp only [lines, if_neg hboth, if_pos hends, ih, List.map_cons]
  | case6 line c _ d begins rest hboth hends ih =>
    simp only [List.map_cons] at ih ⊢
    simp only [lines, if_neg hboth, if_neg hends, ih]

theorem marked_flatten (chunks : List Text) :
    (marked chunks).map (fun unit => (unit.1, false)) = chunks.flatten.map (·, false) := by
  induction chunks with
  | nil => rfl
  | cons chunk chunks ih =>
    rw [List.flatten_cons, List.map_append, ← ih]
    cases chunk with
    | nil => rfl
    | cons c rest => simp [marked]

theorem flatMap_pieces {ls : List Line} (h : ∀ l ∈ ls, l.cut = false) :
    ls.flatMap Line.pieces = ls.map Line.text := by
  induction ls with
  | nil => rfl
  | cons l ls ih =>
    have hl := h l List.mem_cons_self
    simp [Line.pieces, hl, ih fun l' hl' => h l' (List.mem_cons_of_mem _ hl')]

theorem pushAll_whole (text : Text) : pushAll [] [text] = events text := by
  have hmerge : merge (marked [text]) = merge (text.map (·, false)) := by
    cases text with
    | nil => rfl
    | cons c rest =>
      have hmarked : marked [c :: rest] = (c, true) :: rest.map (·, false) := by simp [marked]
      rw [hmarked]
      exact merge_head c true false _
  rw [pushAll_eq settled_nil, splitFrom_dispatch reads_nil, ← merge_marked, hmerge, lfLines_merge,
    flatMap_pieces, events]
  intro l hl
  rw [show text.map (·, false) = (text.map (·, false)).map fun unit : UInt16 × Bool =>
    (unit.1, false) by simp,
    lines_unmarked] at hl
  obtain ⟨_, -, rfl⟩ := List.mem_map.mp hl
  rfl

def texts (frame : List Line) : List Text := frame.map Line.text

def allParts (frame : List Line) : List (List Text) := (parts frame).1 ++ [(parts frame).2]

theorem parts_snoc (frame : List Line) (line : Line) : parts (frame ++ [line]) =
    if line.cut then ((parts frame).1 ++ [(parts frame).2 ++ [line.text]], [])
    else ((parts frame).1, (parts frame).2 ++ [line.text]) := by
  simp only [parts, List.foldl_append, List.foldl_cons, List.foldl_nil]

theorem allParts_flatten (frame : List Line) : (allParts frame).flatten = texts frame := by
  induction frame using List.reverseRecOn with
  | nil => rfl
  | append_singleton frame line ih =>
    have hall : ∀ part : List Text, (parts frame).1.flatten ++ ((parts frame).2 ++ part) =
        texts frame ++ part := by
      intro part
      rw [← ih, allParts, List.flatten_append, List.flatten_singleton, List.append_assoc]
    cases hcut : line.cut with
    | true => simp [allParts, parts_snoc, hcut, hall, texts]
    | false => simp [allParts, parts_snoc, hcut, hall, texts]

theorem values_flatten (field : String) (pieces : List (List Text)) :
    values field pieces.flatten = pieces.flatMap (values field) := by
  induction pieces with
  | nil => rfl
  | cons piece pieces ih => rw [List.flatten_cons, values_append, ih, List.flatMap_cons]

theorem event_eq_none {frame : List Text} : event frame = none ↔ values "data" frame = [] := by
  by_cases h : values "data" frame = [] <;> simp [event, h]

theorem dispatch_texts (frame ls : List Line) :
    dispatch (texts frame) (texts ls) = (frames frame ls).1.filterMap fun frame =>
      event (texts frame) := by
  induction ls generalizing frame with
  | nil => rfl
  | cons line ls ih =>
    simp only [texts, List.map_cons, dispatch, frames]
    by_cases hblank : line.text = []
    · have hrest := ih []
      simp only [texts, List.map_nil] at hrest
      rw [if_pos hblank, if_pos hblank, hrest, List.filterMap_cons]
      cases event (frame.map Line.text) <;> rfl
    · have hrest := ih (frame ++ [line])
      simp only [texts, List.map_append, List.map_cons, List.map_nil] at hrest
      rw [if_neg hblank, if_neg hblank, hrest]

theorem dispatch_pieces (frame ls : List Line) :
    (parts frame).1.filterMap event ++ dispatch (parts frame).2 (ls.flatMap Line.pieces)
      = (frames frame ls).1.flatMap (fun frame => (allParts frame).filterMap event)
        ++ (parts (frames frame ls).2).1.filterMap event := by
  induction ls generalizing frame with
  | nil => simp [dispatch, frames]
  | cons line ls ih =>
    have hend : ∀ part, [part].filterMap event = (event part).toList := by
      intro part
      cases hpart : event part <;> simp [hpart]
    rw [List.flatMap_cons, frames]
    by_cases hblank : line.text = []
    · have hrest := ih []
      have hdispatch : dispatch (parts frame).2 (line.pieces ++ ls.flatMap Line.pieces)
          = (event (parts frame).2).toList ++ dispatch [] (ls.flatMap Line.pieces) := by
        cases hcut : line.cut <;> simp [Line.pieces, hcut, hblank, dispatch, event_nil]
      simp only [parts, List.foldl_nil, List.filterMap_nil, List.nil_append] at hrest
      rw [if_pos hblank, hdispatch, hrest, List.flatMap_cons, allParts, List.filterMap_append, hend]
      simp [parts]
    · rw [if_neg hblank, ← ih (frame ++ [line]), parts_snoc]
      cases hcut : line.cut with
      | true => simp [Line.pieces, hcut, hblank, dispatch, hend, List.filterMap_append]
      | false => simp [Line.pieces, hcut, hblank, dispatch]

theorem length_event_le (frame : List Line) :
    (event (texts frame)).toList.length ≤ ((allParts frame).filterMap event).length := by
  cases hevent : event (texts frame) with
  | none => simp
  | some e =>
    have hdata : values "data" (texts frame) ≠ [] := fun h => by
      simp [event_eq_none.mpr h] at hevent
    rw [← allParts_flatten, values_flatten] at hdata
    obtain ⟨part, hpart, hvalues⟩ : ∃ part ∈ allParts frame, values "data" part ≠ [] := by
      simpa using hdata
    obtain ⟨e', he'⟩ := Option.ne_none_iff_exists'.mp (fun h => hvalues (event_eq_none.mp h))
    exact List.length_pos_of_mem (List.mem_filterMap.mpr ⟨part, hpart, he'⟩)

theorem flatMap_eq_flatMap_append {α β : Type} {f g : α → List β}
    (h : ∀ x, (f x).length ≤ (g x).length) (xs : List α)
    (rest : List β) : xs.flatMap g ++ rest = xs.flatMap f ↔ (∀ x ∈ xs, g x = f x) ∧ rest = [] := by
  have hle : ∀ xs : List α, (xs.flatMap f).length ≤ (xs.flatMap g).length := by
    intro xs
    induction xs with
    | nil => simp
    | cons x xs ih =>
      have hx := h x
      simp only [List.flatMap_cons, List.length_append]
      omega
  constructor
  · intro heq
    induction xs with
    | nil => exact ⟨by simp, by simpa using heq⟩
    | cons x xs ih =>
      have hx := h x
      have hrest := hle xs
      have hlength := congrArg List.length heq
      simp only [List.flatMap_cons, List.length_append, List.append_assoc] at heq hlength
      obtain ⟨hhead, htail⟩ := List.append_inj heq (by omega)
      obtain ⟨hall, hnil⟩ := ih htail
      exact ⟨by simpa [hhead] using hall, hnil⟩
  · rintro ⟨hall, rfl⟩
    rw [List.append_nil]
    induction xs with
    | nil => rfl
    | cons x xs ih =>
      rw [List.flatMap_cons, List.flatMap_cons, hall x List.mem_cons_self,
        ih fun y hy => hall y (List.mem_cons_of_mem _ hy)]

theorem filterMap_event_eq_nil {pieces : List (List Text)} :
    pieces.filterMap event = [] ↔ ∀ piece ∈ pieces, values "data" piece = [] := by
  simp [List.filterMap_eq_nil_iff, event_eq_none]

theorem intact_iff (frame : List Line) :
    Intact frame ↔ (allParts frame).filterMap event = (event (texts frame)).toList := by
  have hflatten : values "data" (texts frame) = (allParts frame).flatMap (values "data") := by
    rw [← values_flatten, allParts_flatten]
  constructor
  · intro hintact
    by_cases hdata : values "data" (texts frame) = []
    · have hparts : ∀ part ∈ allParts frame, values "data" part = [] := by
        rw [hdata] at hflatten
        simpa using hflatten.symm
      rw [filterMap_event_eq_nil.mpr hparts, event_eq_none.mpr hdata]
      rfl
    · obtain ⟨part, hpart, hvalues, htype, hid⟩ := hintact hdata
      change part ∈ allParts frame at hpart
      change values "data" part = values "data" (texts frame) at hvalues
      change eventType part = eventType (texts frame) at htype
      change lastID part = lastID (texts frame) at hid
      have hevent : event part = event (texts frame) := by simp only [event, hvalues, htype, hid]
      obtain ⟨before, after, hsplit⟩ := List.append_of_mem hpart
      -- What has all the data leaves none for the others.
      have hlength : (before.flatMap (values "data")).length = 0 ∧
          (after.flatMap (values "data")).length = 0 := by
        have hall := congrArg List.length hflatten
        rw [hsplit, List.flatMap_append, List.flatMap_cons, ← hvalues] at hall
        simp only [List.length_append] at hall
        omega
      have hbefore : before.filterMap event = [] :=
        filterMap_event_eq_nil.mpr (by simpa using List.eq_nil_of_length_eq_zero hlength.1)
      have hafter : after.filterMap event = [] :=
        filterMap_event_eq_nil.mpr (by simpa using List.eq_nil_of_length_eq_zero hlength.2)
      rw [hsplit, List.filterMap_append, hbefore, List.filterMap_cons, hevent, hafter]
      cases event (texts frame) <;> rfl
  · intro hparts hdata
    obtain ⟨e, he⟩ := Option.ne_none_iff_exists'.mp (fun h => hdata (event_eq_none.mp h))
    change event (texts frame) = some e at he
    rw [he] at hparts
    obtain ⟨before, part, after, hsplit, hbefore, hpart, hafter⟩ :=
      List.filterMap_eq_cons_iff.mp hparts
    have hnone : before.flatMap (values "data") = [] ∧ after.flatMap (values "data") = [] := by
      constructor
      · simpa using fun piece hpiece => event_eq_none.mp (hbefore piece hpiece)
      · simpa using filterMap_event_eq_nil.mp hafter
    have hvalues : values "data" part = values "data" (texts frame) := by
      rw [hflatten, hsplit, List.flatMap_append, List.flatMap_cons, hnone.1, hnone.2]
      simp
    refine ⟨part, by rw [← allParts, hsplit]; simp, hvalues, ?_⟩
    have hsame : event part = event (texts frame) := hpart.trans he.symm
    change values "data" (texts frame) ≠ [] at hdata
    simp only [event, hvalues, if_neg hdata, Option.some.injEq, SseEvent.mk.injEq,
      true_and] at hsame
    exact hsame

/-- The events do not depend on the chunks exactly where these do no harm. -/
theorem pushAll_chunks (chunks : List Text) :
    (pushAll [] chunks = pushAll [] [chunks.flatten] ∧
      pushAll [] [chunks.flatten] = events chunks.flatten)
      ↔ Unharmed chunks := by
  have hchunks : pushAll [] chunks = (frames [] (lines [] (marked chunks))).1.flatMap
      (fun frame => (allParts frame).filterMap event)
        ++ (parts (frames [] (lines [] (marked chunks))).2).1.filterMap event :=
    (pushAll_dispatch chunks).trans (dispatch_pieces [] _)
  have hwhole : events chunks.flatten
      = (frames [] (lines [] (marked chunks))).1.flatMap fun frame =>
        (event (texts frame)).toList := by
    have htexts := dispatch_texts [] (lines [] (marked chunks))
    rw [List.filterMap_eq_flatMap_toList] at htexts
    rw [events, ← marked_flatten, lines_unmarked, List.map_map, ← htexts]
    rfl
  rw [pushAll_whole, and_iff_left rfl, hchunks, hwhole, flatMap_eq_flatMap_append length_event_le,
    filterMap_event_eq_nil]
  exact and_congr_left fun _ => forall₂_congr fun frame _ => (intact_iff frame).symm

def cutChunks : List Text := [Utf16.encode "data: a\r", Utf16.encode "\ndata: b\r\n\r\n"]

/-- Two events for one, of two data lines. -/
theorem pushAll_cutChunks : pushAll [] cutChunks ≠ pushAll [] [cutChunks.flatten] := by
  decide +kernel

end Beam.Web.Sse
