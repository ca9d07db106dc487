import WordArena.Cli.Notifications

/-! Forwarding that does not depend on how a stream is cut. A chunk can be read if it is a text
on its own and if it fits into the buffer together with the unfinished event before it. -/
namespace WordArena.Cli

open Delimiters (First Cut)
open Fallible

section Draining

variable {serde : SerdeJson} {pending : List Char} {events : List (List Char)} {rest : List Char}

/-- Draining gives the frames of the events that the text is cut into. -/
theorem drain_cut (h : Cut blankLines pending events rest) {frames : List (List String)}
    (hFrames : events.mapM (eventFrames serde) = .ok frames) :
    drainSseEvents serde pending = .ok (frames.flatten, rest) := by
  induction h generalizing frames with
  | @rest text hNone =>
      cases hFrames
      rw [drainSseEvents]
      split
      · rfl
      · next start len hBoundary =>
          obtain ⟨d, hFirst, -⟩ := nextEventBoundary_first hBoundary
          exact absurd hFirst (hNone start d)
  | @piece text events rest i d hFirst later ih =>
      rw [List.mapM_cons] at hFrames
      obtain ⟨frame, hFrame, hOthers⟩ := bind_eq_ok.mp hFrames
      obtain ⟨others, hLater, hAll⟩ := bind_eq_ok.mp hOthers
      cases hAll
      rw [drainSseEvents]
      split
      · next hBoundary => exact absurd hFirst (not_first_of_boundary hBoundary i d)
      · next start len hBoundary =>
          obtain ⟨d', hOther, rfl⟩ := nextEventBoundary_first hBoundary
          obtain ⟨rfl, rfl⟩ := hFirst.unique infixFree_blankLines hOther
          rw [hFrame, ok_bind, ih hLater, ok_bind]
          rfl

/-- An event that can be forwarded: its data, if there is some, is JSON. -/
def IsJson (serde : SerdeJson) (event : List Char) : Prop :=
  eventData event ≠ "" → (serde.fromStr (eventData event)).isSome

theorem exists_eventFrames {event : List Char} (h : IsJson serde event) :
    ∃ frames, eventFrames serde event = .ok frames := by
  rw [eventFrames]
  split_ifs with hEmpty
  · exact ⟨[], rfl⟩
  · obtain ⟨value, hValue⟩ := Option.isSome_iff_exists.mp (h hEmpty)
    exact ⟨[serde.toString value], by rw [hValue]⟩

theorem exists_frames (h : ∀ event ∈ events, IsJson serde event) :
    ∃ frames, events.mapM (eventFrames serde) = .ok frames :=
  mapM_succeeds fun event hMem => exists_eventFrames (h event hMem)

end Draining

section Chunks

variable {serde : SerdeJson} {text : String} {events : List (List Char)} {rest : List Char}
  {before later chunks : List (List UInt8)} {chunk : List UInt8}

/-- Every chunk is a text on its own and has room behind the event that is not ended yet. -/
structure Readable (before chunks : List (List UInt8)) : Prop where
  whole : ∀ chunk ∈ chunks, (Bytes.decode chunk).isSome
  room : ∀ (earlier : List (List UInt8)) (chunk : List UInt8), earlier ++ [chunk] <+: chunks →
    ∀ (text : String) (events : List (List Char)) (rest : List Char),
      Bytes.decode (before ++ earlier).flatten = some text → Cut blankLines text.toList events rest →
      (Bytes.utf8 (String.ofList rest)).length + chunk.length ≤ maxFrameBytes

theorem decode_append {a b : List UInt8} {left right : String} (ha : Bytes.decode a = some left)
    (hb : Bytes.decode b = some right) : Bytes.decode (a ++ b) = some (left ++ right) := by
  rw [Bytes.decode_eq_some] at ha hb ⊢
  rw [Bytes.utf8_append, ha, hb]

/-- The text of the first bytes is the beginning of the text of all bytes. -/
theorem decode_prefix {a b : List UInt8} {left whole : String} (ha : Bytes.decode a = some left)
    (h : Bytes.decode (a ++ b) = some whole) : ∃ more, whole.toList = left.toList ++ more := by
  rw [Bytes.decode_eq_some, Bytes.utf8_eq] at ha h
  have hBytes : left.toList.utf8Encode ++ ⟨b.toArray⟩ = whole.toList.utf8Encode := by
    rw [String.utf8Encode_toList, String.utf8Encode_toList]
    apply ByteArray.ext
    apply Array.toList_inj.mp
    rw [h, ← ha, ByteArray.data_append, Array.toList_append]
  obtain ⟨more, hMore⟩ := List.isPrefix_of_utf8Encode_append_eq_utf8Encode _ hBytes
  exact ⟨more, hMore.symm⟩

theorem readable_cons (hText : Bytes.decode before.flatten = some text)
    (hCut : Cut blankLines text.toList events rest) :
    Readable before (chunk :: chunks) ↔ (Bytes.decode chunk).isSome ∧
      (Bytes.utf8 (String.ofList rest)).length + chunk.length ≤ maxFrameBytes ∧
      Readable (before ++ [chunk]) chunks := by
  constructor
  · intro ⟨hWhole, hRoom⟩
    rw [List.forall_mem_cons] at hWhole
    refine ⟨hWhole.1, ?_, hWhole.2, ?_⟩
    · apply hRoom [] chunk (List.prefix_append [chunk] chunks) text events rest _ hCut
      rwa [List.append_nil]
    · intro earlier other hPrefix
      rw [List.append_assoc]
      apply hRoom (chunk :: earlier) other
      exact (List.prefix_cons_inj chunk).mpr hPrefix
  · intro ⟨hChunk, hFits, hWhole, hRoom⟩
    refine ⟨List.forall_mem_cons.mpr ⟨hChunk, hWhole⟩, ?_⟩
    intro earlier other hPrefix text' events' rest' hText' hCut'
    cases earlier with
    | nil =>
        rw [List.append_nil, hText] at hText'
        cases hText'
        obtain ⟨-, rfl⟩ := hCut.unique infixFree_blankLines hCut'
        obtain rfl := (List.cons_prefix_cons.mp hPrefix).1
        exact hFits
    | cons first earlier =>
        obtain ⟨rfl, hLater⟩ := List.cons_prefix_cons.mp hPrefix
        apply hRoom earlier other hLater text' events' rest' _ hCut'
        rwa [List.append_assoc]

/-- The forwarding goes on exactly while the chunks can be read, and it then has sent the frames
of all events. -/
theorem forwardFrom_iff (hText : Bytes.decode before.flatten = some text)
    (hCut : Cut blankLines text.toList events rest) {frames : List (List String)}
    (hFrames : events.mapM (eventFrames serde) = .ok frames) {whole : String}
    {allEvents : List (List Char)} {last : List Char}
    (hWhole : Bytes.decode (before ++ chunks).flatten = some whole)
    (hAll : Cut blankLines whole.toList allEvents last)
    (hJson : ∀ event ∈ allEvents, IsJson serde event) {allFrames : List (List String)}
    (hAllFrames : allEvents.mapM (eventFrames serde) = .ok allFrames) :
    forwardFrom serde none rest frames.flatten (chunks.map .chunk) = (allFrames.flatten, .ok ()) ↔
      Readable before chunks := by
  induction chunks generalizing before text events rest frames with
  | nil =>
      rw [List.append_nil, hText] at hWhole
      cases hWhole
      obtain ⟨rfl, rfl⟩ := hCut.unique infixFree_blankLines hAll
      cases hFrames.symm.trans hAllFrames
      simp only [List.map_nil, forwardFrom, true_iff]
      exact ⟨nofun, fun earlier chunk hPrefix => by simp at hPrefix⟩
  | cons chunk chunks ih =>
      rw [readable_cons hText hCut, List.map_cons, forwardFrom]
      cases hPiece : Bytes.decode chunk with
      | none => simp
      | some piece =>
          have hNext : Bytes.decode (before ++ [chunk]).flatten = some (text ++ piece) := by
            rw [List.flatten_append, List.flatten_singleton]
            exact decode_append hText hPiece
          have hRest : (before ++ [chunk] ++ chunks).flatten = (before ++ chunk :: chunks).flatten := by
            simp
          obtain ⟨added, rest', hAdded⟩ :=
            Delimiters.exists_cut infixFree_blankLines (rest ++ piece.toList)
          have hCutNext : Cut blankLines (text ++ piece).toList (events ++ added) rest' := by
            rw [String.toList_append]
            exact hCut.append infixFree_blankLines hAdded
          -- the events so far are events of the whole text
          obtain ⟨more, hMore⟩ := decode_prefix hNext (b := chunks.flatten)
            (by rwa [← List.flatten_append, hRest])
          obtain ⟨others, last', hOthers⟩ :=
            Delimiters.exists_cut infixFree_blankLines (rest' ++ more)
          obtain ⟨hEvents, -⟩ := hAll.unique infixFree_blankLines
            (hMore ▸ hCutNext.append infixFree_blankLines hOthers)
          have hAddedJson : ∀ event ∈ added, IsJson serde event := fun event hMem =>
            hJson event (by simp [hEvents, hMem])
          obtain ⟨addedFrames, hAddedFrames⟩ := exists_frames hAddedJson
          have hFramesNext : (events ++ added).mapM (eventFrames serde) =
              .ok (frames ++ addedFrames) := by
            rw [List.mapM_append, hFrames, ok_bind, hAddedFrames, ok_bind]
            rfl
          have hLength : (Bytes.utf8 (String.ofList (rest ++ piece.toList))).length =
              (Bytes.utf8 (String.ofList rest)).length + chunk.length := by
            rw [String.ofList_append, Bytes.utf8_append, List.length_append, String.ofList_toList,
              Bytes.decode_eq_some.mp hPiece]
          simp only [Option.isSome_some, true_and, hLength, drain_cut hAdded hAddedFrames, sendAll,
            if_true]
          by_cases hFits : (Bytes.utf8 (String.ofList rest)).length + chunk.length ≤ maxFrameBytes
          · rw [if_neg (Nat.not_lt.mpr hFits)]
            have hLater := ih hNext hCutNext hFramesNext (hRest ▸ hWhole)
            rw [List.flatten_append] at hLater
            rw [hLater]
            exact ⟨fun h => ⟨hFits, h⟩, And.right⟩
          · rw [if_pos (Nat.lt_of_not_le hFits)]
            exact ⟨fun h => absurd h (by simp), fun h => absurd h.1 hFits⟩

/-- Nothing has arrived. -/
theorem decode_nil : Bytes.decode ([] : List (List UInt8)).flatten = some "" := by
  rw [Bytes.decode_eq_some, Bytes.utf8_eq]
  rfl

/-- What is sent does not depend on the cuts, and the forwarding ends without an error, exactly if
every chunk is a text on its own and fits behind the unfinished event before it. -/
theorem forwardSse_iff (serde : SerdeJson) {stream : List UInt8} {text : String}
    (hText : Bytes.decode stream = some text) {events : List (List Char)} {rest : List Char}
    (hCut : Cut blankLines text.toList events rest) (hJson : ∀ event ∈ events, IsJson serde event)
    {chunks : List (List UInt8)} (hChunks : chunks.flatten = stream) :
    (∃ frames, parseSseBytes serde (Bytes.utf8 (String.ofList events.flatten)) = .ok frames ∧
      forwardSse serde none (chunks.map .chunk) = (frames, .ok ())) ↔ Readable [] chunks := by
  obtain ⟨frames, hFrames⟩ := exists_frames hJson
  have hParse : parseSseBytes serde (Bytes.utf8 (String.ofList events.flatten)) =
      .ok frames.flatten := by
    rw [parseSseBytes, Bytes.decode_eq_some.mpr rfl]
    simp only [okOr, ok_bind, String.toList_ofList,
      drain_cut (hCut.complete infixFree_blankLines) hFrames]
    rfl
  have hNone : ([] : List (List Char)).mapM (eventFrames serde) = .ok [] := rfl
  have hWhole : Bytes.decode (([] : List (List UInt8)) ++ chunks).flatten = some text := by
    rwa [List.nil_append, hChunks]
  have hForward : forwardSse serde none (chunks.map .chunk) = (frames.flatten, .ok ()) ↔
      Readable [] chunks :=
    forwardFrom_iff decode_nil (Delimiters.cut_nil infixFree_blankLines) hNone hWhole hCut hJson
      hFrames
  rw [← hForward, hParse]
  constructor
  · rintro ⟨found, hFound, hSent⟩
    cases hFound
    exact hSent
  · exact fun hSent => ⟨frames.flatten, rfl, hSent⟩

/-- A serializer that knows one text. -/
def demoSerde : SerdeJson := ⟨String, fun text => if text = "\"é\"" then some text else none, id⟩

def demoEvent : String := "data: \"é\"\n\n"

theorem demoEvent_cut : Cut blankLines demoEvent.toList [demoEvent.toList] [] := by
  have hFirst : First blankLines demoEvent.toList 9 lineFeeds := by
    constructor
    · decide
    · decide
    · decide
  exact hFirst.cut infixFree_blankLines

theorem demoEvent_json : ∀ event ∈ [demoEvent.toList], IsJson demoSerde event := by
  rw [List.forall_mem_singleton]
  intro _
  decide +kernel

/-- One chunk can be read. -/
theorem demo_forwarded :
    (∃ frames, parseSseBytes demoSerde (Bytes.utf8 (String.ofList [demoEvent.toList].flatten)) =
      .ok frames ∧ forwardSse demoSerde none ([Bytes.utf8 demoEvent].map .chunk) =
        (frames, .ok ())) ↔ Readable [] [Bytes.utf8 demoEvent] :=
  forwardSse_iff demoSerde (Bytes.decode_eq_some.mpr rfl) demoEvent_cut demoEvent_json
    (List.append_nil _)

/-- A cut inside a character ends the forwarding before the first frame. -/
theorem cut_character :
    (∀ event ∈ [demoEvent.toList], IsJson demoSerde event ∧
      (Bytes.utf8 (String.ofList event)).length ≤ maxFrameBytes) ∧
    Cut blankLines demoEvent.toList [demoEvent.toList] [] ∧
    ([(Bytes.utf8 demoEvent).take 8, (Bytes.utf8 demoEvent).drop 8] : List (List UInt8)).flatten =
      Bytes.utf8 demoEvent ∧
    parseSseBytes demoSerde (Bytes.utf8 (String.ofList [demoEvent.toList].flatten)) =
      .ok ["\"é\""] ∧
    forwardSse demoSerde none ([(Bytes.utf8 demoEvent).take 8, (Bytes.utf8 demoEvent).drop 8].map
      .chunk) = ([], .error (.protocol "MCP SSE was not UTF-8")) := by
  refine ⟨?_, demoEvent_cut, ?_, ?_, ?_⟩
  · rw [List.forall_mem_singleton]
    exact ⟨demoEvent_json _ (List.mem_singleton_self _), by decide +kernel⟩
  · decide +kernel
  · decide +kernel
  · decide +kernel

end Chunks

end WordArena.Cli
