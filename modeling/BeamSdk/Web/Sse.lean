import Mathlib.Data.List.Induction
import BeamSdk.Library.Utf16

/-! The parser of server-sent events, over the code units of the text it is pushed. -/

namespace Beam.Web.Sse

abbrev Text := List UInt16

def lf : UInt16 := 10

def cr : UInt16 := 13

def space : UInt16 := 32

def colon : UInt16 := 58

structure SseEvent where
  type : Text
  data : Text
  id : Option Text
deriving DecidableEq

def normalize : Text → Text
  | [] => []
  | [c] => [if c = cr then lf else c]
  | c :: d :: rest =>
    if c = cr ∧ d = lf then lf :: normalize rest
      else (if c = cr then lf else c) :: normalize (d :: rest)

def splitFrames : Text → List Text
  | [] => [[]]
  | [c] => [[c]]
  | c :: d :: rest =>
    if c = lf ∧ d = lf then [] :: splitFrames rest
      else (splitFrames (d :: rest)).modifyHead (c :: ·)

def splitField (line : Text) : Text × Text :=
  let value := (line.dropWhile (· ≠ colon)).drop 1
  (line.takeWhile (· ≠ colon), if value.head? = some space then value.drop 1 else value)

structure Fields where
  type : Text
  id : Option Text
  dataLines : List Text

def Fields.read (fields : Fields) (line : Text) : Fields :=
  if line = [] ∨ line.head? = some colon then fields
  else
    let (field, value) := splitField line
    if field = Utf16.encode "event" then { fields with type := value }
    else if field = Utf16.encode "data" then
      { fields with dataLines := fields.dataLines ++ [value] }
    else if field = Utf16.encode "id" then { fields with id := some value }
    else fields

def parseFrame (frame : Text) : Option SseEvent :=
  let fields := (frame.splitOn lf).foldl Fields.read ⟨Utf16.encode "message", none, []⟩
  if fields.dataLines = [] then none
    else some ⟨fields.type, [lf].intercalate fields.dataLines, fields.id⟩

def push (buffer chunk : Text) : List SseEvent × Text :=
  let frames := splitFrames (normalize (buffer ++ chunk))
  (frames.dropLast.filterMap parseFrame, frames.getLast?.getD [])

def pushAll (buffer : Text) : List Text → List SseEvent
  | [] => []
  | chunk :: chunks => (push buffer chunk).1 ++ pushAll (push buffer chunk).2 chunks

/-- A line that has ended. It is `cut` where a chunk ends between the CR and the LF that end it. -/
structure Line where
  text : Text
  cut : Bool

def marked (chunks : List Text) : List (UInt16 × Bool) :=
  chunks.flatMap fun
    | [] => []
    | c :: rest => (c, true) :: rest.map (·, false)

/-- The lines, from one of which some text is read already. What follows the last line end is no
line. -/
def lines (line : Text) : List (UInt16 × Bool) → List Line
  | [] => []
  | [(c, _)] => if c = cr ∨ c = lf then [⟨line, false⟩] else []
  | (c, _) :: (d, begins) :: rest =>
    if c = cr ∧ d = lf then ⟨line, begins⟩ :: lines [] rest
    else if c = cr ∨ c = lf then ⟨line, false⟩ :: lines [] ((d, begins) :: rest)
    else lines (line ++ [c]) ((d, begins) :: rest)

def values (field : String) (frame : List Text) : List Text :=
  (frame.filter fun line => (splitField line).1 = Utf16.encode field).map fun line =>
    (splitField line).2

def eventType (frame : List Text) : Text :=
    (values "event" frame).getLast?.getD (Utf16.encode "message")

def lastID (frame : List Text) : Option Text := (values "id" frame).getLast?

def event (frame : List Text) : Option SseEvent :=
  if values "data" frame = [] then none
  else some ⟨eventType frame, [lf].intercalate (values "data" frame), lastID frame⟩

/-- The events of the frames that an empty line ends, where some lines of the first are read
already. -/
def dispatch (frame : List Text) : List Text → List SseEvent
  | [] => []
  | line :: rest =>
    if line = [] then (event frame).toList ++ dispatch [] rest else dispatch (frame ++ [line]) rest

def events (text : Text) : List SseEvent :=
    dispatch [] ((lines [] (text.map (·, false))).map Line.text)

theorem values_append (field : String) (frame frame' : List Text) :
    values field (frame ++ frame') = values field frame ++ values field frame' := by
  simp [values]

theorem values_singleton (field : String) (line : Text) :
    values field [line] = if (splitField line).1 = Utf16.encode field then [(splitField line).2]
      else [] := by
  by_cases h : (splitField line).1 = Utf16.encode field <;> simp [values, h]

theorem splitField_blank {line : Text} (h : line = [] ∨ line.head? = some colon) :
    (splitField line).1 = [] := by
  rcases h with rfl | h
  · rfl
  · cases line with
    | nil => rfl
    | cons c rest =>
      have hc : c = colon := by simpa using h
      simp [splitField, hc]

theorem foldl_read (frame : List Text) : frame.foldl Fields.read ⟨Utf16.encode "message", none, []⟩
    = ⟨eventType frame, lastID frame, values "data" frame⟩ := by
  have hevent : Utf16.encode "event" ≠ [] := by decide
  have hdata : Utf16.encode "data" ≠ [] := by decide
  have hid : Utf16.encode "id" ≠ [] := by decide
  have hne : Utf16.encode "event" ≠ Utf16.encode "data" := by decide
  have hne' : Utf16.encode "event" ≠ Utf16.encode "id" := by decide
  have hne'' : Utf16.encode "data" ≠ Utf16.encode "id" := by decide
  induction frame using List.reverseRecOn with
  | nil => rfl
  | append_singleton frame line ih =>
    rw [List.foldl_append, ih, List.foldl_cons, List.foldl_nil, Fields.read]
    simp only [eventType, lastID, values_append, values_singleton]
    split
    · rename_i hblank
      simp [splitField_blank hblank, hevent.symm, hdata.symm, hid.symm]
    · by_cases h : (splitField line).1 = Utf16.encode "event"
      · simp [h, hne, hne']
      · by_cases h' : (splitField line).1 = Utf16.encode "data"
        · simp [h', hne.symm, hne'']
        · by_cases h'' : (splitField line).1 = Utf16.encode "id" <;>
            simp [h, h', h'', hne'.symm, hne''.symm]

theorem parseFrame_eq (frame : Text) : parseFrame frame = event (frame.splitOn lf) := by
  simp only [parseFrame, foldl_read, event]

theorem event_cons_nil (frame : List Text) : event ([] :: frame) = event frame := by
  have hvalues : ∀ field, Utf16.encode field ≠ [] →
      values field ([] :: frame) = values field frame := by
    intro field hfield
    have hblank : values field [[]] = [] := by
      rw [values_singleton, if_neg]
      exact fun h => hfield h.symm
    rw [← List.singleton_append, values_append, hblank, List.nil_append]
  simp only [event, eventType, lastID, hvalues "data" (by decide), hvalues "event" (by decide),
    hvalues "id" (by decide)]

theorem event_nil : event [] = none := rfl

def splitFrom (frame : Text) : Text → List Text
  | [] => [frame]
  | c :: rest =>
    if c = lf ∧ frame.getLast? = some lf then frame.dropLast :: splitFrom [] rest
      else splitFrom (frame ++ [c]) rest

theorem splitFrom_ne_nil (frame text : Text) : splitFrom frame text ≠ [] := by
  induction text generalizing frame with
  | nil => simp [splitFrom]
  | cons c rest ih =>
    rw [splitFrom]
    split
    · exact List.cons_ne_nil _ _
    · exact ih _

theorem splitFrom_eq (frame text : Text) (h : ¬ (text.head? = some lf ∧ frame.getLast? = some lf)) :
    splitFrom frame text = (splitFrames text).modifyHead (frame ++ ·) := by
  induction text using splitFrames.induct generalizing frame with
  | case1 => simp [splitFrom, splitFrames]
  | case2 c =>
    have hc : ¬ (c = lf ∧ frame.getLast? = some lf) := by simpa using h
    simp [splitFrom, splitFrames, hc]
  | case3 c d rest hboth ih =>
    obtain ⟨rfl, rfl⟩ := hboth
    have hend : frame.getLast? ≠ some lf := by simpa using h
    have hstart : splitFrom [] rest = splitFrames rest := by
      rw [ih [] (by simp)]
      cases splitFrames rest <;> rfl
    simp [splitFrom, splitFrames, hend, hstart]
  | case4 c d rest hboth ih =>
    have hc : ¬ (c = lf ∧ frame.getLast? = some lf) := by simpa using h
    rw [splitFrames, if_neg hboth, splitFrom, if_neg hc,
      ih (frame ++ [c]) (by simpa [and_comm] using hboth)]
    cases splitFrames (d :: rest) <;> simp

theorem splitFrames_eq (text : Text) : splitFrames text = splitFrom [] text := by
  rw [splitFrom_eq [] text (by simp)]
  cases splitFrames text <;> simp

def lastFrame (frame text : Text) : Text :=
    (splitFrom frame text).getLast (splitFrom_ne_nil frame text)

theorem splitFrom_append (frame text text' : Text) :
    splitFrom frame (text ++ text') = (splitFrom frame text).dropLast ++
      splitFrom (lastFrame frame text) text' := by
  induction text generalizing frame with
  | nil => simp [splitFrom, lastFrame]
  | cons c rest ih =>
    rw [List.cons_append, splitFrom]
    by_cases hends : c = lf ∧ frame.getLast? = some lf
    · have hlast : lastFrame frame (c :: rest) = lastFrame [] rest := by
        simp only [lastFrame, splitFrom, if_pos hends, List.getLast_cons (splitFrom_ne_nil [] rest)]
      rw [if_pos hends, ih, hlast, splitFrom, if_pos hends,
        List.dropLast_cons_of_ne_nil (splitFrom_ne_nil [] rest),
        List.cons_append]
    · have hlast : lastFrame frame (c :: rest) = lastFrame (frame ++ [c]) rest := by
        simp only [lastFrame, splitFrom, if_neg hends]
      rw [if_neg hends, ih, hlast, splitFrom, if_neg hends]

def Settled (buffer : Text) : Prop := cr ∉ buffer ∧ splitFrom [] buffer = [buffer]

theorem settled_nil : Settled [] := ⟨List.not_mem_nil, rfl⟩

theorem settled_lastFrame {buffer text : Text} (hbuffer : Settled buffer) (htext : cr ∉ text) :
    Settled (lastFrame buffer text) := by
  induction text generalizing buffer with
  | nil => exact hbuffer
  | cons c rest ih =>
    obtain ⟨hc, hrest⟩ := List.ne_and_not_mem_of_not_mem_cons htext
    by_cases hends : c = lf ∧ buffer.getLast? = some lf
    · have hlast : lastFrame buffer (c :: rest) = lastFrame [] rest := by
        simp only [lastFrame, splitFrom, if_pos hends, List.getLast_cons (splitFrom_ne_nil [] rest)]
      rw [hlast]
      exact ih settled_nil hrest
    · have hlast : lastFrame buffer (c :: rest) = lastFrame (buffer ++ [c]) rest := by
        simp only [lastFrame, splitFrom, if_neg hends]
      rw [hlast]
      refine ih ⟨by simp [hbuffer.1, hc], ?_⟩ hrest
      have hbefore : lastFrame [] buffer = buffer := by
        simp only [lastFrame, hbuffer.2, List.getLast_singleton]
      rw [splitFrom_append, hbefore, hbuffer.2]
      simp [splitFrom, hends]

theorem normalize_append_of_notMem {buffer : Text} (h : cr ∉ buffer) (chunk : Text) :
    normalize (buffer ++ chunk) = buffer ++ normalize chunk := by
  induction buffer with
  | nil => rfl
  | cons c rest ih =>
    obtain ⟨hc, hrest⟩ := List.ne_and_not_mem_of_not_mem_cons h
    rw [List.cons_append, List.cons_append, ← ih hrest]
    cases rest ++ chunk with
    | nil => simp [normalize, hc.symm]
    | cons d rest => simp [normalize, hc.symm]

theorem notMem_normalize (text : Text) : cr ∉ normalize text := by
  have hlf : cr ≠ lf := by decide
  induction text using normalize.induct with
  | case1 => simp [normalize]
  | case2 c => by_cases hc : c = cr <;> simp [normalize, hc, hlf, Ne.symm]
  | case3 c d rest hboth ih => simp [normalize, hboth, ih, hlf]
  | case4 c d rest hboth ih =>
    rw [normalize, if_neg hboth]
    by_cases hc : c = cr
    · simp [hc, ih, hlf]
    · simp [hc, ih, Ne.symm hc]

theorem push_eq {buffer : Text} (h : Settled buffer) (chunk : Text) :
    push buffer chunk = ((splitFrom buffer (normalize chunk)).dropLast.filterMap parseFrame,
      lastFrame buffer (normalize chunk)) := by
  have hbefore : lastFrame [] buffer = buffer := by
    simp only [lastFrame, h.2, List.getLast_singleton]
  have hframes : splitFrames (normalize (buffer ++ chunk)) =
      splitFrom buffer (normalize chunk) := by
    rw [normalize_append_of_notMem h.1, splitFrames_eq, splitFrom_append, h.2, hbefore]
    rfl
  simp only [push, hframes, lastFrame, List.getLast?_eq_some_getLast (splitFrom_ne_nil _ _),
    Option.getD_some]

theorem pushAll_eq {buffer : Text} (h : Settled buffer) (chunks : List Text) :
    pushAll buffer chunks =
      (splitFrom buffer (chunks.flatMap normalize)).dropLast.filterMap parseFrame := by
  induction chunks generalizing buffer with
  | nil => rfl
  | cons chunk chunks ih =>
    rw [pushAll, push_eq h, ih (settled_lastFrame h (notMem_normalize chunk)), List.flatMap_cons,
      splitFrom_append,
      List.dropLast_append_of_ne_nil (splitFrom_ne_nil _ _), List.filterMap_append]

def lfLines (line : Text) : Text → List Text
  | [] => []
  | c :: rest => if c = lf then line :: lfLines [] rest else lfLines (line ++ [c]) rest

def unlines (lines : List Text) : Text := lines.flatMap (· ++ [lf])

theorem splitOn_unlines {lines : List Text} {line : Text} (h : ∀ l ∈ lines, lf ∉ l)
    (hline : lf ∉ line) :
    (unlines lines ++ line).splitOn lf = lines ++ [line] := by
  have hfree : ∀ {l : Text}, lf ∉ l → ∀ c ∈ l, (c == lf) = false := by
    intro l hl c hc
    simpa using fun heq : c = lf => hl (heq ▸ hc)
  induction lines with
  | nil => exact List.splitOnP_eq_singleton (hfree hline)
  | cons l lines ih =>
    have hl := h l List.mem_cons_self
    have hrest := ih fun l' hl' => h l' (List.mem_cons_of_mem _ hl')
    have hsplit : unlines (l :: lines) ++ line = l ++ lf :: (unlines lines ++ line) := by
      simp [unlines]
    rw [hsplit, List.cons_append, ← hrest]
    exact List.splitOnP_append_cons_of_forall_mem (hfree hl) lf (by simp) _

/-- A frame being read, as lines that have ended and a line that has not. One empty line may stand
before them. -/
structure Reads (frame : Text) (ended : List Text) (line : Text) : Prop where
  shape : frame = unlines ended ++ line ∨ frame = lf :: (unlines ended ++ line)
  free : ∀ l ∈ ended, lf ∉ l ∧ l ≠ []
  open_free : lf ∉ line

theorem reads_nil : Reads [] [] [] := ⟨.inl rfl, by simp, by simp⟩

theorem Reads.push {frame line : Text} {ended : List Text} (h : Reads frame ended line) {c : UInt16}
    (hc : c ≠ lf) :
    Reads (frame ++ [c]) ended (line ++ [c]) := by
  refine ⟨?_, h.free, by simp [h.open_free, hc.symm]⟩
  rcases h.shape with hshape | hshape
  · exact .inl (by simp [hshape])
  · exact .inr (by simp [hshape])

theorem Reads.endLine {frame line : Text} {ended : List Text} (h : Reads frame ended line)
    (hline : line ≠ []) :
    Reads (frame ++ [lf]) (ended ++ [line]) [] := by
  refine ⟨?_, ?_, List.not_mem_nil⟩
  · rcases h.shape with hshape | hshape
    · exact .inl (by simp [hshape, unlines])
    · exact .inr (by simp [hshape, unlines])
  · intro l hl
    rcases List.mem_append.mp hl with hl | hl
    · exact h.free l hl
    · obtain rfl := List.mem_singleton.mp hl
      exact ⟨h.open_free, hline⟩

theorem Reads.getLast?_ne {frame line : Text} {ended : List Text} (h : Reads frame ended line)
    (hline : line ≠ []) :
    frame.getLast? ≠ some lf := by
  obtain ⟨start, c, rfl⟩ := (List.eq_nil_or_concat line).resolve_left hline
  have hc : c ≠ lf := fun hc => h.open_free (by simp [hc])
  rcases h.shape with hshape | hshape <;> simp [hshape, hc, List.getLast?_cons]

theorem Reads.getLast? {frame : Text} {ended : List Text} (h : Reads frame ended [])
    (hframe : frame ≠ []) :
    frame.getLast? = some lf := by
  rcases List.eq_nil_or_concat ended with rfl | ⟨start, l, rfl⟩
  · rcases h.shape with hshape | hshape
    · exact absurd hshape hframe
    · simp [hshape, unlines]
  · rcases h.shape with hshape | hshape
    · simp [hshape, unlines]
    · simp [hshape, unlines, List.getLast?_cons]

theorem Reads.parseFrame {frame : Text} {ended : List Text} (h : Reads frame ended [])
    (hframe : frame ≠ []) :
    Sse.parseFrame frame.dropLast = event ended := by
  rw [parseFrame_eq]
  rcases List.eq_nil_or_concat ended with rfl | ⟨start, l, rfl⟩
  · rcases h.shape with hshape | hshape
    · exact absurd hshape hframe
    · rw [hshape]
      exact event_cons_nil []
  · have hstart : ∀ l' ∈ start, lf ∉ l' := fun l' hl' => (h.free l' (by simp [hl'])).1
    have hl : lf ∉ l := (h.free l (by simp)).1
    have hsplit := splitOn_unlines hstart hl
    rcases h.shape with hshape | hshape
    · have hdrop : frame.dropLast = unlines start ++ l := by
        rw [hshape, unlines, List.concat_eq_append, List.flatMap_append]
        simp [unlines, ← List.append_assoc]
      rw [hdrop, hsplit, List.concat_eq_append]
    · have hdrop : frame.dropLast = [] ++ lf :: (unlines start ++ l) := by
        rw [hshape, unlines, List.concat_eq_append, List.flatMap_append]
        simp [unlines, ← List.append_assoc, List.dropLast_cons_of_ne_nil]
      have hempty : ([] ++ lf :: (unlines start ++ l)).splitOn lf = [] :: (start ++ [l]) := by
        rw [← hsplit]
        exact List.splitOnP_append_cons_of_forall_mem (by simp) lf (by simp) _
      rw [hdrop, hempty, event_cons_nil, List.concat_eq_append]

theorem splitFrom_dispatch {frame line : Text} {ended : List Text} (h : Reads frame ended line)
    (text : Text) :
    (splitFrom frame text).dropLast.filterMap parseFrame = dispatch ended (lfLines line text) := by
  induction text generalizing frame ended line with
  | nil => rfl
  | cons c rest ih =>
    rw [splitFrom, lfLines]
    by_cases hc : c = lf
    · subst hc
      by_cases hline : line = []
      · subst hline
        by_cases hframe : frame = []
        · subst hframe
          obtain rfl : ended = [] := by
            rcases List.eq_nil_or_concat ended with hended | ⟨start, l, rfl⟩
            · exact hended
            · rcases h.shape with hshape | hshape <;> simp [unlines] at hshape
          have hnext : Reads ([] ++ [lf]) [] [] := ⟨.inr rfl, by simp, by simp⟩
          rw [if_neg (by simp), if_pos rfl, dispatch, if_pos rfl, event_nil, ih hnext]
          rfl
        · rw [if_pos ⟨rfl, h.getLast? hframe⟩, if_pos rfl,
            List.dropLast_cons_of_ne_nil (splitFrom_ne_nil _ _), dispatch,
            if_pos rfl, ← ih reads_nil, ← h.parseFrame hframe, List.filterMap_cons]
          cases Sse.parseFrame frame.dropLast <;> rfl
      · have hends : ¬ (lf = lf ∧ frame.getLast? = some lf) :=
          fun hends => h.getLast?_ne hline hends.2
        rw [if_neg hends, if_pos rfl, dispatch, if_neg hline, ih (h.endLine hline)]
    · have hends : ¬ (c = lf ∧ frame.getLast? = some lf) := fun hends => hc hends.1
      rw [if_neg hends, if_neg hc, ih (h.push hc)]

end Beam.Web.Sse
