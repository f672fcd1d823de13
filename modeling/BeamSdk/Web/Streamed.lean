import BeamSdk.Web.Session
import BeamSdk.Web.Sse

/-! The broker's event stream at the browser: what one connection delivers of it, wherever the
network cuts the text and wherever it ends. -/

namespace Beam.Web.Sse
variable {V : Type}

def frameText (lines : List Text) : Text := unlines lines ++ [lf]

theorem lfLines_append_lf {line : Text} (text : Text) {start : Text} (hline : lf ∉ line) :
    lfLines start (line ++ lf :: text) = (start ++ line) :: lfLines [] text := by
  induction line generalizing start with
  | nil => rw [List.nil_append, lfLines, if_pos rfl, List.append_nil]
  | cons c rest ih =>
    obtain ⟨hc, hrest⟩ := List.ne_and_not_mem_of_not_mem_cons hline
    rw [List.cons_append, lfLines, if_neg hc.symm, ih hrest, List.append_assoc,
      List.singleton_append]

theorem lfLines_unlines {lines : List Text} (h : ∀ l ∈ lines, lf ∉ l) (text : Text) :
    lfLines [] (unlines lines ++ text) = lines ++ lfLines [] text := by
  induction lines with
  | nil => rfl
  | cons l lines ih =>
    have hsplit : unlines (l :: lines) ++ text = l ++ lf :: (unlines lines ++ text) := by
      simp [unlines]
    rw [hsplit, lfLines_append_lf _ (h l List.mem_cons_self), ih fun l' hl' =>
      h l' (List.mem_cons_of_mem _ hl'),
      List.nil_append, List.cons_append]

theorem lfLines_isPrefix {text text' : Text} (h : text <+: text') (start : Text) :
    lfLines start text <+: lfLines start text' := by
  obtain ⟨rest, rfl⟩ := h
  induction text generalizing start with
  | nil => exact List.nil_prefix
  | cons c text ih =>
    rw [List.cons_append, lfLines, lfLines]
    by_cases hc : c = lf
    · rw [if_pos hc, if_pos hc]
      exact (List.prefix_cons_inj start).mpr (ih [])
    · rw [if_neg hc, if_neg hc]
      exact ih _

theorem dispatch_frame {lines : List Text} (h : ∀ l ∈ lines, l ≠ []) (frame rest : List Text) :
    dispatch frame (lines ++ [] :: rest) = (event (frame ++ lines)).toList ++ dispatch [] rest := by
  induction lines generalizing frame with
  | nil => rw [List.nil_append, dispatch, if_pos rfl, List.append_nil]
  | cons l lines ih =>
    rw [List.cons_append, dispatch, if_neg (h l List.mem_cons_self), ih fun l' hl' =>
      h l' (List.mem_cons_of_mem _ hl'),
      List.append_assoc, List.singleton_append]

theorem dispatch_eq_nil {lines : List Text} (h : ∀ l ∈ lines, l ≠ []) (frame : List Text) :
    dispatch frame lines = [] := by
  induction lines generalizing frame with
  | nil => rfl
  | cons l lines ih =>
    rw [dispatch, if_neg (h l List.mem_cons_self)]
    exact ih (fun l' hl' => h l' (List.mem_cons_of_mem _ hl')) _

def FrameLines (lines : List Text) : Prop := ∀ l ∈ lines, l ≠ [] ∧ lf ∉ l

theorem dispatch_frames {frames : List (List Text)} (h : ∀ lines ∈ frames, FrameLines lines)
    {next : List Text}
    (hnext : FrameLines next) {rest : Text} (hrest : rest <+: unlines next) :
    dispatch [] (lfLines [] (frames.flatMap frameText ++ rest)) = frames.filterMap event := by
  induction frames with
  | nil =>
    have hlines : lfLines [] rest <+: next := by
      have hall := lfLines_isPrefix hrest []
      have heq : lfLines [] (unlines next ++ []) = next ++ lfLines [] [] :=
        lfLines_unlines (fun l hl => (hnext l hl).2) []
      rw [List.append_nil, lfLines, List.append_nil] at heq
      rwa [heq] at hall
    exact dispatch_eq_nil (fun l hl => (hnext l (hlines.subset hl)).1) []
  | cons lines frames ih =>
    have hlines := h lines List.mem_cons_self
    have hsplit : (lines :: frames).flatMap frameText ++ rest =
        unlines lines ++ lf :: (frames.flatMap frameText ++ rest) := by
      simp only [List.flatMap_cons, frameText, List.append_assoc, List.cons_append, List.nil_append]
    have hend : lfLines [] (lf :: (frames.flatMap frameText ++ rest)) =
        [] :: lfLines [] (frames.flatMap frameText ++ rest) := by rw [lfLines, if_pos rfl]
    rw [hsplit, lfLines_unlines (fun l hl => (hlines l hl).2), hend,
      dispatch_frame (fun l hl => (hlines l hl).1),
      ih fun lines hl => h lines (List.mem_cons_of_mem _ hl), List.nil_append, List.filterMap_cons]
    cases event lines <;> rfl

/-- How far a beginning of some texts reaches: past the first ones, and into the next but not to its
end. -/
theorem prefix_flatten {α : Type} {texts : List (List α)} {text : List α}
    (h : text <+: texts.flatten) :
    ∃ m ≤ texts.length, ∃ rest, text = (texts.take m).flatten ++ rest ∧
      ((m = texts.length ∧ rest = []) ∨ ∃ next, texts[m]? = some next ∧ rest <+: next ∧
        rest ≠ next) := by
  induction texts generalizing text with
  | nil => exact ⟨0, Nat.le_refl 0, [], List.prefix_nil.mp h, .inl ⟨rfl, rfl⟩⟩
  | cons t texts ih =>
    rw [List.flatten_cons] at h
    by_cases hpast : t <+: text
    · obtain ⟨text', rfl⟩ := hpast
      obtain ⟨m, hm, rest, rfl, hcut⟩ := ih ((List.prefix_append_right_inj t).mp h)
      refine ⟨m + 1, Nat.succ_le_succ hm, rest, ?_, ?_⟩
      · rw [List.take_succ_cons, List.flatten_cons, List.append_assoc]
      · rw [List.length_cons, List.getElem?_cons_succ]
        exact hcut.imp_left fun hend => ⟨congrArg Nat.succ hend.1, hend.2⟩
    · have hinside : text <+: t := by
        refine List.prefix_of_prefix_length_le h (List.prefix_append t _)
          (Nat.le_of_not_le fun hlong => hpast ?_)
        exact List.prefix_of_prefix_length_le (List.prefix_append t _) h hlong
      refine ⟨0, Nat.zero_le _, text, rfl, .inr ⟨t, rfl, hinside, ?_⟩⟩
      rintro rfl
      exact hpast (List.prefix_refl _)

section Broker
variable (stringify : V → Text)

/-- `` `id: ${sequence}\nevent: transfer\ndata: ${JSON.stringify(record)}\n\n` ``, or the error's
frame. -/
def frame : Event V → Text
  | .transfer sequence record => Utf16.encode "id: " ++ Utf16.encode (toString sequence) ++
      Utf16.encode "\nevent: transfer\ndata: " ++ stringify record ++ Utf16.encode "\n\n"
  | .error => Utf16.encode "event: error\ndata: \x7b\"error\":\"stream_failed\"\x7d\n\n"

def frameLines : Event V → List Text
  | .transfer sequence record => [Utf16.encode "id: " ++ Utf16.encode (toString sequence),
      Utf16.encode "event: transfer", Utf16.encode "data: " ++ stringify record]
  | .error =>
      [Utf16.encode "event: error", Utf16.encode "data: \x7b\"error\":\"stream_failed\"\x7d"]

def received : Event V → SseEvent
  | .transfer sequence record =>
      ⟨Utf16.encode "transfer", stringify record, some (Utf16.encode (toString sequence))⟩
  | .error => ⟨Utf16.encode "error", Utf16.encode "\x7b\"error\":\"stream_failed\"\x7d", none⟩

/-- `JSON.stringify` writes one line: it escapes every control character. -/
def Inline : Prop := ∀ record, lf ∉ stringify record ∧ cr ∉ stringify record

variable {stringify}

theorem frame_eq (e : Event V) : frame stringify e = frameText (frameLines stringify e) := by
  cases e with
  | transfer sequence record =>
    have hevent : Utf16.encode "\nevent: transfer\ndata: " =
        lf :: (Utf16.encode "event: transfer" ++ lf :: Utf16.encode "data: ") := by decide
    have hend : Utf16.encode "\n\n" = [lf, lf] := by decide
    simp only [frame, frameLines, frameText, unlines, hevent, hend, List.flatMap_cons,
      List.flatMap_nil, List.append_assoc,
      List.cons_append, List.nil_append, List.append_nil]
  | error =>
    show Utf16.encode "event: error\ndata: \x7b\"error\":\"stream_failed\"\x7d\n\n" =
      frameText [Utf16.encode "event: error",
        Utf16.encode "data: \x7b\"error\":\"stream_failed\"\x7d"]
    decide

theorem encode_digits {n : ℕ} {c : UInt16} (h : c ∈ Utf16.encode (toString n)) : 48 ≤ c.toNat := by
  obtain ⟨d, hd, hc⟩ := List.mem_flatMap.mp h
  have hdigits : (toString n).toList = Nat.toDigits 10 n := Nat.toList_repr
  rw [hdigits] at hd
  obtain ⟨hlow, hhigh⟩ :=
    Char.isDigit_iff_toNat.mp (Nat.isDigit_of_mem_toDigits (by decide) (by decide) hd)
  have hlow : 48 ≤ d.toNat := hlow
  have hhigh : d.toNat ≤ 57 := hhigh
  rw [Utf16.encodeChar, if_pos (by omega), List.mem_singleton] at hc
  rw [hc, Nat.toUInt16_eq, UInt16.toNat_ofNat', Nat.mod_eq_of_lt (by omega)]
  exact hlow

theorem frameLines_ok (hinline : Inline stringify) (e : Event V) :
    FrameLines (frameLines stringify e) := by
  have hfree : ∀ {n : ℕ}, lf ∉ Utf16.encode (toString n) :=
    fun h => absurd (encode_digits h) (by decide)
  cases e with
  | transfer sequence record =>
    have hid : Utf16.encode "id: " ≠ [] ∧ lf ∉ Utf16.encode "id: " := by decide
    have htype : Utf16.encode "event: transfer" ≠ [] ∧
        lf ∉ Utf16.encode "event: transfer" := by decide
    have hdata : Utf16.encode "data: " ≠ [] ∧ lf ∉ Utf16.encode "data: " := by decide
    intro l hl
    simp only [frameLines, List.mem_cons, List.not_mem_nil, or_false] at hl
    rcases hl with rfl | rfl | rfl
    · exact ⟨List.append_ne_nil_of_left_ne_nil hid.1 _, fun h =>
        (List.mem_append.mp h).elim hid.2 hfree⟩
    · exact htype
    · exact ⟨List.append_ne_nil_of_left_ne_nil hdata.1 _, fun h =>
        (List.mem_append.mp h).elim hdata.2 (hinline record).1⟩
  | error =>
    show FrameLines [Utf16.encode "event: error",
      Utf16.encode "data: \x7b\"error\":\"stream_failed\"\x7d"]
    unfold FrameLines
    decide

theorem splitField_eq (field : Text) (h : colon ∉ field) (value : Text) :
    splitField (field ++ colon :: space :: value) = (field, value) := by
  have hpass : ∀ c ∈ field, decide (c ≠ colon) = true :=
    fun c hc => decide_eq_true fun he => h (he ▸ hc)
  have hkeep : (field ++ colon :: space :: value).takeWhile (· ≠ colon) = field := by
    rw [List.takeWhile_append_of_pos hpass, List.takeWhile_cons_of_neg (by decide), List.append_nil]
  have hdrop : (field ++ colon :: space :: value).dropWhile (· ≠ colon) = colon ::
      space :: value := by
    rw [List.dropWhile_append_of_pos hpass, List.dropWhile_cons_of_neg (by decide)]
  rw [splitField, hkeep, hdrop]
  rfl

theorem event_frameLines (e : Event V) : event (frameLines stringify e) =
    some (received stringify e) := by
  cases e with
  | transfer sequence record =>
    have hid := splitField_eq (Utf16.encode "id") (by decide) (Utf16.encode (toString sequence))
    have htype := splitField_eq (Utf16.encode "event") (by decide) (Utf16.encode "transfer")
    have hdata := splitField_eq (Utf16.encode "data") (by decide) (stringify record)
    have hidText : Utf16.encode "id: " = Utf16.encode "id" ++ [colon, space] := by decide
    have htypeText : Utf16.encode "event: transfer" = Utf16.encode "event" ++ colon :: space ::
        Utf16.encode "transfer" := by
      decide
    have hdataText : Utf16.encode "data: " = Utf16.encode "data" ++ [colon, space] := by decide
    have hne : Utf16.encode "id" ≠ Utf16.encode "data" ∧
        Utf16.encode "event" ≠ Utf16.encode "data" ∧
        Utf16.encode "id" ≠ Utf16.encode "event" ∧ Utf16.encode "data" ≠ Utf16.encode "event" ∧
        Utf16.encode "event" ≠ Utf16.encode "id" ∧
          Utf16.encode "data" ≠ Utf16.encode "id" := by decide
    obtain ⟨h₁, h₂, h₃, h₄, h₅, h₆⟩ := hne
    simp only [frameLines, received, hidText, htypeText, hdataText, List.append_assoc,
      List.cons_append, List.nil_append]
    generalize Utf16.encode (toString sequence) = number at hid ⊢
    simp [event, eventType, lastID, values, hid, htype, hdata, h₁, h₂, h₃, h₄, h₅, h₆]
  | error =>
    show event [Utf16.encode "event: error",
      Utf16.encode "data: \x7b\"error\":\"stream_failed\"\x7d"] = some
      ⟨Utf16.encode "error", Utf16.encode "\x7b\"error\":\"stream_failed\"\x7d", none⟩
    decide

theorem cr_notMem_frame (hinline : Inline stringify) (e : Event V) : cr ∉ frame stringify e := by
  cases e with
  | transfer sequence record =>
    have hid : cr ∉ Utf16.encode "id: " := by decide
    have htype : cr ∉ Utf16.encode "\nevent: transfer\ndata: " := by decide
    have hend : cr ∉ Utf16.encode "\n\n" := by decide
    have hdigits : cr ∉ Utf16.encode (toString sequence) :=
      fun h => absurd (encode_digits h) (by decide)
    simp only [frame, List.mem_append, not_or]
    exact ⟨⟨⟨⟨hid, hdigits⟩, htype⟩, (hinline record).2⟩, hend⟩
  | error =>
    show cr ∉ Utf16.encode "event: error\ndata: \x7b\"error\":\"stream_failed\"\x7d\n\n"
    decide

theorem pushAll_frames (hinline : Inline stringify) {events : List (Event V)} {chunks : List Text}
    (h : chunks.flatten <+: events.flatMap (frame stringify)) :
    ∃ m ≤ events.length, ((events.take m).flatMap (frame stringify)).length ≤
      chunks.flatten.length ∧
      (m < events.length → chunks.flatten.length <
        ((events.take (m + 1)).flatMap (frame stringify)).length) ∧
      pushAll [] chunks = (events.take m).map (received stringify) := by
  have hcr : ∀ chunk ∈ chunks, normalize chunk = chunk := by
    intro chunk hchunk
    have hfree : cr ∉ chunk := fun hc => by
      obtain ⟨e, -, he⟩ := List.mem_flatMap.mp (h.subset (List.mem_flatten.mpr ⟨chunk, hchunk, hc⟩))
      exact cr_notMem_frame hinline e he
    simpa only [List.append_nil, normalize] using normalize_append_of_notMem hfree []
  have hpush : pushAll [] chunks = dispatch [] (lfLines [] chunks.flatten) := by
    have hflat : chunks.flatMap normalize = chunks.flatten := by
      rw [← List.flatMap_id]
      exact List.flatMap_congr hcr
    rw [pushAll_eq settled_nil, splitFrom_dispatch reads_nil, hflat]
  rw [List.flatMap_def] at h
  obtain ⟨m, hm, rest, htext, hcut⟩ := prefix_flatten h
  rw [List.length_map] at hm
  rw [← List.map_take, ← List.flatMap_def] at htext
  have hframes : ∀ events : List (Event V), events.flatMap (frame stringify) =
      (events.map (frameLines stringify)).flatMap frameText := fun events => by
    rw [List.flatMap_map]
    exact List.flatMap_congr fun e _ => frame_eq e
  -- what follows the last whole frame lies within the lines of the next
  obtain ⟨next, hnext, hrest⟩ : ∃ next, FrameLines next ∧ rest <+: unlines next := by
    rcases hcut with ⟨-, rfl⟩ | ⟨text, htext, hpre, hne⟩
    · exact ⟨[], fun l hl => absurd hl List.not_mem_nil, List.nil_prefix⟩
    · rw [List.getElem?_map, Option.map_eq_some_iff] at htext
      obtain ⟨e, -, rfl⟩ := htext
      rw [frame_eq, frameText] at hpre hne
      exact ⟨frameLines stringify e, frameLines_ok hinline e,
        (List.prefix_concat_iff.mp hpre).resolve_left hne⟩
  have hevents : pushAll [] chunks = (events.take m).map (received stringify) := by
    rw [hpush, htext, hframes, dispatch_frames (fun lines hl => ?_) hnext hrest, List.filterMap_map]
    · refine List.filterMap_eq_map_iff_forall_eq_some.mpr fun e _ => ?_
      exact event_frameLines e
    · obtain ⟨e, -, rfl⟩ := List.mem_map.mp hl
      exact frameLines_ok hinline e
  refine ⟨m, hm, ?_, fun hlt => ?_, hevents⟩
  · rw [htext, List.length_append]
    exact Nat.le_add_right _ _
  · rcases hcut with ⟨hend, -⟩ | ⟨text, hat, hpre, hne⟩
    · rw [List.length_map] at hend
      exact absurd hend (Nat.ne_of_lt hlt)
    · rw [List.getElem?_map, List.getElem?_eq_getElem hlt, Option.map_some,
        Option.some.injEq] at hat
      have hshort : rest.length < text.length := by
        refine Nat.lt_of_le_of_ne hpre.length_le fun he => hne ?_
        exact hpre.eq_of_length he
      rw [htext, List.take_succ_eq_append_getElem hlt, List.flatMap_append,
        List.flatMap_singleton, hat,
        List.length_append, List.length_append]
      omega

end Broker

structure Stream where
  lastEventId : Option Text
  handled : List SseEvent

def Stream.handle (s : Stream) (event : SseEvent) : Stream :=
    ⟨event.id.or s.lastEventId, s.handled ++ [event]⟩

/-- The events of one chunk. An event whose handler throws is the last of its connection. -/
def handleAll (throws : SseEvent → Bool) : Stream → List SseEvent → Stream × Bool
  | s, [] => (s, true)
  | s, event :: events =>
    if throws event then (s.handle event, false) else handleAll throws (s.handle event) events

/-- The read loop of `#connectOnce`, over the chunks as they are decoded. -/
def connectOnce (throws : SseEvent → Bool) (s : Stream) (buffer : Text) : List Text → Stream
  | [] => s
  | chunk :: chunks =>
    match handleAll throws s (push buffer chunk).1 with
    | (s, true) => connectOnce throws s (push buffer chunk).2 chunks
    | (s, false) => s

theorem handleAll_append (throws : SseEvent → Bool) (s : Stream) (events events' : List SseEvent) :
    handleAll throws s (events ++ events') =
      if (handleAll throws s events).2 then handleAll throws (handleAll throws s events).1 events'
      else handleAll throws s events := by
  induction events generalizing s with
  | nil => rfl
  | cons event events ih =>
    rw [List.cons_append, handleAll, handleAll]
    by_cases hthrows : throws event = true
    · rw [if_pos hthrows, if_pos hthrows]
      rfl
    · rw [if_neg hthrows, if_neg hthrows, ih]

theorem connectOnce_eq (throws : SseEvent → Bool) (s : Stream) (buffer : Text)
    (chunks : List Text) :
    connectOnce throws s buffer chunks = (handleAll throws s (pushAll buffer chunks)).1 := by
  induction chunks generalizing s buffer with
  | nil => rfl
  | cons chunk chunks ih =>
    rw [connectOnce, pushAll, handleAll_append]
    cases hall : handleAll throws s (push buffer chunk).1 with
    | mk s' done =>
      cases done with
      | true => exact ih s' _
      | false => rfl

theorem handleAll_quiet {throws : SseEvent → Bool} (hquiet : ∀ event, throws event = false)
    (s : Stream)
    (events : List SseEvent) : (handleAll throws s events).1 =
      ⟨(events.filterMap SseEvent.id).getLast?.or s.lastEventId, s.handled ++ events⟩ := by
  induction events generalizing s with
  | nil => simp [handleAll]
  | cons event events ih =>
    rw [handleAll, if_neg (by rw [hquiet]; decide), ih, Stream.handle, List.append_assoc,
      List.singleton_append,
      List.filterMap_cons]
    cases event.id with
    | none => rfl
    | some id =>
        cases hlast : (events.filterMap SseEvent.id).getLast? <;> simp [hlast, List.getLast?_cons]

theorem enqueue_eq (h : Host V) (n : ℕ) (records : List V) : (Broker.enqueue h n records).1 =
    ((records.takeWhile h.serializes).zipIdx (n + 1)).map fun r => .transfer r.2 r.1 := by
  induction records generalizing n with
  | nil => rfl
  | cons record records ih =>
    rw [Broker.enqueue]
    by_cases hs : h.serializes record = true
    · rw [if_pos hs, ih, List.takeWhile_cons_of_pos hs]
      rfl
    · rw [if_neg hs, List.takeWhile_cons_of_neg hs]
      rfl

theorem take_zipIdx {α : Type} (l : List α) (k m : ℕ) :
    (l.zipIdx k).take m = (l.take m).zipIdx k := by
  induction l generalizing k m with
  | nil => simp
  | cons a l ih =>
    cases m with
    | zero => rfl
    | succ m =>
        rw [List.zipIdx_cons, List.take_succ_cons, List.take_succ_cons, List.zipIdx_cons, ih]

theorem last_id (stringify : V → Text) (written : List V) {tail : List (Event V)}
    (htail : tail = [] ∨ tail = [.error])
    (m : ℕ) :
    (((((written.zipIdx 1).map fun r => Event.transfer r.2 r.1) ++ tail).take m |>.map
      (received stringify)).filterMap
      SseEvent.id).getLast? =
        if min m written.length = 0 then none
          else some (Utf16.encode (toString (min m written.length))) := by
  have htailIds : ∀ k, ((tail.take k).map (received stringify)).filterMap SseEvent.id = [] := by
    intro k
    rcases htail with rfl | rfl
    · rw [List.take_nil]
      rfl
    · cases k with
      | zero => rfl
      | succ k =>
        rw [List.take_succ_cons, List.take_nil]
        rfl
  have hids :
      (((written.zipIdx 1).map fun r => Event.transfer r.2 r.1).take m |>.map
        (received stringify)).filterMap
      SseEvent.id = ((written.take m).zipIdx 1).map fun r => Utf16.encode (toString r.2) := by
    rw [← List.map_take, take_zipIdx, List.map_map, List.filterMap_map]
    exact List.filterMap_eq_map_iff_forall_eq_some.mpr fun _ _ => rfl
  rw [List.take_append, List.map_append, List.filterMap_append, hids, htailIds, List.append_nil,
    List.getLast?_map,
    List.getLast?_zipIdx, ← List.length_take]
  rcases List.eq_nil_or_concat (written.take m) with hnil | ⟨start, record, hlast⟩
  · rw [hnil]
    rfl
  · rw [hlast, List.concat_eq_append, List.getLast?_concat, List.length_append,
      List.length_singleton, if_neg (by omega)]
    simp only [Option.map_some]
    rw [show 1 + (start.length + 1) - 1 = start.length + 1 by omega]

/-- What one connection to the broker's stream gives the browser, wherever the network cuts the
text and wherever it ends: the events that arrived whole, each once and in order, and for the last
event id the number of records among them. A handler that throws ends the connection with its
event. -/
theorem connection_delivers {stringify : V → Text} (hinline : Inline stringify) (h : Host V)
    (records : List V)
    {tail : List (Event V)} (htail : tail = [] ∨ tail = [.error]) {chunks : List Text}
    (hsent : chunks.flatten <+: ((Broker.enqueue h 0 records).1 ++ tail).flatMap (frame stringify))
    (throws : SseEvent → Bool) (s : Stream) :
    let events := (Broker.enqueue h 0 records).1 ++ tail
    ∃ m ≤ events.length,
      ((events.take m).flatMap (frame stringify)).length ≤ chunks.flatten.length ∧
      (m < events.length → chunks.flatten.length <
        ((events.take (m + 1)).flatMap (frame stringify)).length) ∧
      connectOnce throws s [] chunks =
        (handleAll throws s ((events.take m).map (received stringify))).1 ∧
      ((∀ event, throws event = false) → connectOnce throws s [] chunks =
        { lastEventId :=
            if min m (records.takeWhile h.serializes).length = 0 then s.lastEventId
            else some (Utf16.encode (toString (min m (records.takeWhile h.serializes).length)))
          handled := s.handled ++ (events.take m).map (received stringify) }) := by
  obtain ⟨m, hm, hbefore, hafter, hpush⟩ := pushAll_frames hinline hsent
  have hconnect : connectOnce throws s [] chunks =
      (handleAll throws s
        ((((Broker.enqueue h 0 records).1 ++ tail).take m).map (received stringify))).1 := by
    rw [connectOnce_eq, hpush]
  refine ⟨m, hm, hbefore, hafter, hconnect, fun hquiet => ?_⟩
  rw [hconnect, handleAll_quiet hquiet, enqueue_eq, last_id stringify _ htail]
  split_ifs <;> rfl

def sampleChunks : List Text :=
    [Utf16.encode "id: 1\nevent: tr", Utf16.encode "ansfer\ndata: 7\n", Utf16.encode "\nid: 2\n"]

/-- A stream of two records that breaks off in its second frame. -/
theorem sample_delivered : ∃ m ≤ 2,
    connectOnce (fun _ => false) ⟨none, []⟩ [] sampleChunks =
      { lastEventId := if min m 2 = 0 then none else some (Utf16.encode (toString (min m 2)))
        handled :=
          ([.transfer 1 (), .transfer 2 ()].take m).map (received fun _ => Utf16.encode "7") } := by
  have hinline : Inline fun _ : Unit => Utf16.encode "7" := by
    intro _
    show lf ∉ Utf16.encode "7" ∧ cr ∉ Utf16.encode "7"
    decide
  have hsent : sampleChunks.flatten <+:
      ((Broker.enqueue (Broker.sampleMint .nan) 0 [(), ()]).1 ++ []).flatMap
        (frame fun _ => Utf16.encode "7") := by
    decide +kernel
  obtain ⟨m, hm, -, -, -, hquiet⟩ :=
    connection_delivers hinline (Broker.sampleMint .nan) [(), ()] (.inl rfl) hsent
    (fun _ => false) ⟨none, []⟩
  exact ⟨m, hm, hquiet fun _ => rfl⟩

example : (connectOnce (fun _ => false) ⟨none, []⟩ [] sampleChunks).lastEventId =
    some (Utf16.encode "1") := by
  decide +kernel

end Beam.Web.Sse
