/-
  File:      OpenVac/Chat/EventStream.lean
  Subject:   The event stream of an answer: what server/agent/http-v2.ts writes, and how
             lib/sse.ts reads it chunk by chunk.

  * `parseChatEventStream` -- the client: each chunk is decoded, its line ends are normalised and
    its complete blocks are read.
  * `writeStream` -- the server: one `data:` block per event, and keep-alive comments.
  * `readChunks_eq` -- the outcome is that of one reading of the chunks' normalised texts.
  * `normalised_eq` -- these are the stream's own normalised text where no chunk ends between CR
    and LF; where one does, the pair is missed.
  * `parse_written` -- every cut of a written stream yields its events.
-/
import OpenVac.Lib.Digest
import OpenVac.Lib.JsNumber
import OpenVac.Lib.JsText
import OpenVac.Lib.Utf8

namespace OpenVac.Chat

open JsString JsNumber Utf8

abbrev Bytes := List UInt8

/-! ## 1. The client -/

/-- What the generator throws. -/
inductive StreamError where
  | error (message : String)
  | syntaxError
  | typeError
  | protocolError (message : String)
  deriving DecidableEq, Repr

/-- `protocol`. -/
inductive StreamVersion where
  | v1
  | v2
  deriving DecidableEq, Repr

/-- What the generator remembers of the events so far. -/
structure EventReader where
  completeSeen : Bool
  protocol : Option StreamVersion
  lastSequence : Int
  deriving DecidableEq, Repr

def EventReader.new : EventReader := ⟨false, none, 0⟩

/-- `text.replace(/\r\n/g, "\n")`. -/
def replaceCrlf : Text → Text
  | [] => []
  | [c] => [c]
  | c :: d :: rest =>
      if c = '\r' ∧ d = '\n' then '\n' :: replaceCrlf rest else c :: replaceCrlf (d :: rest)

/-- A character before the first of some blocks, or before the rest where there is none. -/
def pushChar (c : Char) : List Text × Text → List Text × Text
  | ([], rest) => ([], c :: rest)
  | (block :: more, rest) => ((c :: block) :: more, rest)

/-- The blocks that `"\n\n"` ends, in order, and what is left of the buffer. -/
def splitBlocks : Text → List Text × Text
  | [] => ([], [])
  | [c] => ([], [c])
  | c :: d :: rest =>
      if c = '\n' ∧ d = '\n' then ([] :: (splitBlocks rest).1, (splitBlocks rest).2)
      else pushChar c (splitBlocks (d :: rest))

/-- The data of a block: its `data:` lines. -/
def eventData (block : Text) : Text :=
  join ['\n'] (((split '\n' block).filter fun line => "data:".toList.isPrefixOf line).map fun line =>
    trimStart (line.drop 5))

/-- `key in event`; `none` where the operator throws. -/
def hasKey (event : Json) (key : String) : Option Bool :=
  match event with
  | .obj fields => some (fields.any fun field => field.1 == key.toList)
  | .arr _ => some false
  | .null | .bool _ | .num _ | .str _ => none

def property (event : Json) (key : String) : Option Json :=
  match event with
  | .obj fields => Json.lookup fields key.toList
  | _ => none

/-- A value for which `Number.isSafeInteger` holds. -/
def safeInteger [JsonNumber] : Option Json → Option Int
  | some (.num text) =>
      match JsonNumber.finite text with
      | some value => if value.den = 1 ∧ value.num.natAbs < twoTo53 then some value.num else none
      | none => none
  | _ => none

def isTerminal (event : Json) : Bool :=
  match property event "type" with
  | some (.str type) =>
      ["complete", "run.completed", "run.cancelled", "run.failed"].any fun name => type == name.toList
  | _ => false

/-- The check of the terminal event, before an event is yielded. -/
def yieldEvent (reader : EventReader) (event : Json) :
    Except StreamError (EventReader × List Json) :=
  if isTerminal event then
    if reader.completeSeen then
      .error (.protocolError "服务器重复发送了回答完成标记，请刷新对话历史。")
    else .ok ({ reader with completeSeen := true }, [event])
  else if reader.completeSeen then
    .error (.protocolError "服务器在回答完成后继续发送了数据，请刷新对话历史。")
  else .ok (reader, [event])

/-- `"runId" in event && "sequence" in event`. -/
def versionOf (event : Json) : Option StreamVersion :=
  match hasKey event "runId" with
  | some true => (hasKey event "sequence").map fun found => if found then .v2 else .v1
  | some false => some .v1
  | none => none

def readEvent [JsonNumber] (reader : EventReader) (event : Json) :
    Except StreamError (EventReader × List Json) :=
  match versionOf event with
  | none => .error .typeError
  | some version =>
      let protocol := reader.protocol.getD version
      if protocol ≠ version then
        .error (.protocolError "服务器在同一回答中混用了协议版本，请刷新对话历史。")
      else
        match version with
        | .v1 => yieldEvent { reader with protocol := some protocol } event
        | .v2 =>
            match safeInteger (property event "sequence") with
            | none => .ok ({ reader with protocol := some protocol }, [])
            | some sequence =>
                if sequence ≤ reader.lastSequence then
                  .ok ({ reader with protocol := some protocol }, [])
                else
                  yieldEvent { reader with protocol := some protocol, lastSequence := sequence } event

section

variable [JsonText] [JsonNumber]

def readBlock (reader : EventReader) (block : Text) :
    Except StreamError (EventReader × List Json) :=
  if eventData block = [] ∨ eventData block = "[DONE]".toList then .ok (reader, [])
  else
    match JsonText.parse (eventData block) with
    | none => .error .syntaxError
    | some event => readEvent reader event

/-- The loop over the complete blocks of the buffer: what was yielded, and how it ended. -/
def readBlocks (reader : EventReader) : List Text → List Json × Except StreamError EventReader
  | [] => ([], .ok reader)
  | block :: rest =>
      match readBlock reader block with
      | .error e => ([], .error e)
      | .ok (reader', events) =>
          (events ++ (readBlocks reader' rest).1, (readBlocks reader' rest).2)

/-- The end of the stream. -/
def conclude : List Json × Except StreamError EventReader → List Json × Option StreamError
  | (events, .error e) => (events, some e)
  | (events, .ok reader) =>
      (events, if reader.completeSeen then none
        else some (.protocolError "连接中断，未收到完整的回答。请刷新对话历史后重试。"))

/-- `while (true)`: the chunks that `reader.read()` still yields. -/
def readChunks (decoder : TextDecoder) (buffer : Text) (reader : EventReader) :
    List Bytes → List Json × Option StreamError
  | [] => conclude (readBlocks reader (splitBlocks (buffer ++ replaceCrlf decoder.finish)).1)
  | chunk :: rest =>
      let (decoder', text) := decoder.decode chunk
      let (blocks, buffer') := splitBlocks (buffer ++ replaceCrlf text)
      match readBlocks reader blocks with
      | (events, .error e) => (events, some e)
      | (events, .ok reader') =>
          (events ++ (readChunks decoder' buffer' reader' rest).1,
            (readChunks decoder' buffer' reader' rest).2)

/-- The events yielded for a response, and what is thrown after them. -/
def parseChatEventStream : Option (List Bytes) → List Json × Option StreamError
  | none => ([], some (.error "服务器没有返回流式响应。"))
  | some chunks => readChunks TextDecoder.new [] EventReader.new chunks

end

/-! ## 2. The server -/

/-- What the stream is told to send: an event's own fields, or a keep-alive. -/
inductive StreamWrite where
  | event (fields : List (Text × Json))
  | keepAlive

/-- `{ ...event, runId, sequence }`. -/
def sequencedEvent (runId : Text) (sequence : Nat) (fields : List (Text × Json)) : Json :=
  .obj (Json.assign (Json.assign fields "runId".toList (.str runId)) "sequence".toList
    (.num (Nat.toDigits 10 sequence)))

def eventFrame (event : Json) : Text := "data: ".toList ++ event.stringify ++ "\n\n".toList

/-- The chunks the server enqueues after `sequence` events. -/
def writeStream (runId : Text) (sequence : Nat) : List StreamWrite → List Bytes
  | [] => []
  | .keepAlive :: rest => encode ": keep-alive\n\n".toList :: writeStream runId sequence rest
  | .event fields :: rest =>
      encode (eventFrame (sequencedEvent runId (sequence + 1) fields)) ::
        writeStream runId (sequence + 1) rest

/-- The events among them, as they are written. -/
def sentEvents (runId : Text) (sequence : Nat) : List StreamWrite → List Json
  | [] => []
  | .keepAlive :: rest => sentEvents runId sequence rest
  | .event fields :: rest =>
      sequencedEvent runId (sequence + 1) fields :: sentEvents runId (sequence + 1) rest

/-! ## 3. Buffers and blocks -/

theorem splitBlocks_rest {s : Text} (h : (splitBlocks s).1 = []) : (splitBlocks s).2 = s := by
  induction s using splitBlocks.induct with
  | case1 => rfl
  | case2 c => rfl
  | case3 c d rest hcd ih => simp [splitBlocks, hcd] at h
  | case4 c d rest hcd ih =>
    simp only [splitBlocks, if_neg hcd] at h ⊢
    cases hs : splitBlocks (d :: rest) with
    | mk blocks left =>
      cases blocks with
      | nil =>
        simp only [hs] at ih
        simp only [pushChar, ih]
      | cons block more => simp [hs, pushChar] at h

/-- **The blocks of a longer buffer: those there were, and those of what was left of it.** -/
theorem splitBlocks_append (s t : Text) :
    splitBlocks (s ++ t) =
      ((splitBlocks s).1 ++ (splitBlocks ((splitBlocks s).2 ++ t)).1,
        (splitBlocks ((splitBlocks s).2 ++ t)).2) := by
  induction s using splitBlocks.induct with
  | case1 => rfl
  | case2 c => rfl
  | case3 c d rest hcd ih =>
    simp only [List.cons_append, splitBlocks, if_pos hcd, ih]
  | case4 c d rest hcd ih =>
    have hcons : splitBlocks (c :: d :: rest) = pushChar c (splitBlocks (d :: rest)) := by
      simp only [splitBlocks, if_neg hcd]
    have happ : splitBlocks (c :: d :: rest ++ t) = pushChar c (splitBlocks (d :: rest ++ t)) := by
      simp only [List.cons_append, splitBlocks, if_neg hcd]
    rw [happ, hcons, ih]
    cases hs : splitBlocks (d :: rest) with
    | mk blocks left =>
      cases blocks with
      | nil =>
        have hleft : left = d :: rest := by
          have := splitBlocks_rest (s := d :: rest) (by rw [hs])
          rw [hs] at this
          exact this
        subst hleft
        exact happ.symm
      | cons block more => rfl

/-- Line ends are normalised part by part where no part ends between CR and LF. -/
theorem replaceCrlf_append {s t : Text} (h : s.getLast? = some '\r' → t.head? ≠ some '\n') :
    replaceCrlf (s ++ t) = replaceCrlf s ++ replaceCrlf t := by
  induction s using replaceCrlf.induct with
  | case1 => rfl
  | case2 c =>
    cases t with
    | nil => rfl
    | cons d rest =>
      have hcd : ¬ (c = '\r' ∧ d = '\n') := by
        rintro ⟨rfl, rfl⟩
        exact h rfl rfl
      simp only [List.singleton_append, replaceCrlf, if_neg hcd]
  | case3 c d rest hcd ih =>
    have hlast : rest.getLast? = some '\r' → t.head? ≠ some '\n' := by
      intro hr
      refine h ?_
      cases rest with
      | nil => nomatch hr
      | cons e more => rw [List.getLast?_cons_cons, List.getLast?_cons_cons, hr]
    simp only [List.cons_append, replaceCrlf, if_pos hcd, ih hlast]
  | case4 c d rest hcd ih =>
    rw [List.getLast?_cons_cons] at h
    simp only [List.cons_append, replaceCrlf, if_neg hcd]
    rw [← List.cons_append, ih h]

/-- What the chunks add to the buffer, in all. -/
def normalised (decoder : TextDecoder) : List Bytes → Text
  | [] => replaceCrlf decoder.finish
  | chunk :: rest =>
      replaceCrlf (decoder.decode chunk).2 ++ normalised (decoder.decode chunk).1 rest

/-- The bytes of a stream as one text. -/
def streamText (decoder : TextDecoder) (bytes : Bytes) : Text :=
  (decoder.decode bytes).2 ++ (decoder.decode bytes).1.finish

/-- No chunk ends between a CR and the LF after it. -/
def KeepsPairs : List Bytes → Prop
  | [] => True
  | chunk :: rest =>
      ¬ (chunk.getLast? = some 0x0D ∧ rest.flatten.head? = some 0x0A) ∧ KeepsPairs rest

/-- What the end of the stream adds is no line end. -/
theorem finish_head (decoder : TextDecoder) : decoder.finish.head? ≠ some '\n' := by
  unfold TextDecoder.finish flush
  split
  · simp [dropBom]
  · simp [dropBom, replacement]

/-- **Where no pair is cut, the chunks add the normalised text of the whole stream.** -/
theorem normalised_eq {decoder : TextDecoder} {chunks : List Bytes} (h : KeepsPairs chunks) :
    normalised decoder chunks = replaceCrlf (streamText decoder chunks.flatten) := by
  induction chunks generalizing decoder with
  | nil => rfl
  | cons chunk rest ih =>
    obtain ⟨hcut, hrest⟩ := h
    have hwhole : streamText decoder (chunk :: rest).flatten =
        (decoder.decode chunk).2 ++ streamText (decoder.decode chunk).1 rest.flatten := by
      simp only [streamText, List.flatten_cons, TextDecoder.decode_append, List.append_assoc]
    rw [hwhole, replaceCrlf_append, ← ih hrest]
    · rfl
    · -- a CR written last before a LF written first is one pair of bytes
      intro hlast hhead
      refine hcut ?_
      have hfirst : ((decoder.decode chunk).1.decode rest.flatten).2.head? = some '\n' := by
        unfold streamText at hhead
        cases hout : ((decoder.decode chunk).1.decode rest.flatten).2 with
        | nil =>
          rw [hout, List.nil_append] at hhead
          exact absurd hhead (finish_head _)
        | cons c out =>
          rw [hout] at hhead
          exact hhead
      obtain ⟨⟨x, hx, hxc⟩, y, hy, hyc⟩ := TextDecoder.decode_adjacent (c := '\r') (d := '\n')
        (by decide) (by decide) hlast hfirst
      have hx' : x = 0x0D := UInt8.toNat_inj.mp hxc
      have hy' : y = 0x0A := UInt8.toNat_inj.mp hyc
      exact ⟨hx' ▸ hx, hy' ▸ hy⟩

/-! ## 4. Reading in chunks -/

theorem conclude_append (events more : List Json) (result : Except StreamError EventReader) :
    conclude (events ++ more, result) =
      (events ++ (conclude (more, result)).1, (conclude (more, result)).2) := by
  cases result with
  | error e => rfl
  | ok reader => rfl

section

variable [JsonText] [JsonNumber]

theorem readBlocks_append (reader : EventReader) (a b : List Text) :
    readBlocks reader (a ++ b) =
      match readBlocks reader a with
      | (events, .error e) => (events, .error e)
      | (events, .ok reader') =>
          (events ++ (readBlocks reader' b).1, (readBlocks reader' b).2) := by
  induction a generalizing reader with
  | nil => simp [readBlocks]
  | cons block rest ih =>
    simp only [List.cons_append, readBlocks]
    cases readBlock reader block with
    | error e => rfl
    | ok out =>
      obtain ⟨reader', events⟩ := out
      simp only [ih]
      cases hr : readBlocks reader' rest with
      | mk more result =>
        cases result with
        | error e => rfl
        | ok reader'' => simp [List.append_assoc]

/-- **The outcome is that of one reading of what the chunks add to the buffer.** -/
theorem readChunks_eq (decoder : TextDecoder) (buffer : Text) (reader : EventReader)
    (chunks : List Bytes) :
    readChunks decoder buffer reader chunks =
      conclude (readBlocks reader (splitBlocks (buffer ++ normalised decoder chunks)).1) := by
  induction chunks generalizing decoder buffer reader with
  | nil => rfl
  | cons chunk rest ih =>
    simp only [readChunks, normalised, ← List.append_assoc]
    rw [splitBlocks_append (buffer ++ replaceCrlf (decoder.decode chunk).2), readBlocks_append]
    cases readBlocks reader (splitBlocks (buffer ++ replaceCrlf (decoder.decode chunk).2)).1 with
    | mk events result =>
      cases result with
      | error e => rfl
      | ok reader' =>
        simp only [ih, conclude_append]

/-- The outcome for a whole stream that comes as one chunk. -/
theorem parse_eq {chunks : List Bytes} (h : KeepsPairs chunks) :
    parseChatEventStream (some chunks) =
      conclude (readBlocks .new
        (splitBlocks (replaceCrlf (streamText .new chunks.flatten))).1) := by
  show readChunks TextDecoder.new [] EventReader.new chunks = _
  rw [readChunks_eq, List.nil_append, normalised_eq h]

end

/-! ## 5. What the server writes -/

theorem splitBlocks_block {block : Text} (h : '\n' ∉ block) (s : Text) :
    splitBlocks (block ++ '\n' :: '\n' :: s) = (block :: (splitBlocks s).1, (splitBlocks s).2) := by
  induction block with
  | nil => simp [splitBlocks]
  | cons c rest ih =>
    have hc : c ≠ '\n' := fun e => h (by simp [e])
    have hrest : '\n' ∉ rest := fun e => h (List.mem_cons_of_mem c e)
    have hpush : splitBlocks (c :: (rest ++ '\n' :: '\n' :: s)) =
        pushChar c (splitBlocks (rest ++ '\n' :: '\n' :: s)) := by
      cases rest with
      | nil => simp [splitBlocks, hc]
      | cons d more => simp [splitBlocks, hc]
    rw [List.cons_append, hpush, ih hrest]
    rfl

theorem replaceCrlf_eq_self {s : Text} (h : '\r' ∉ s) : replaceCrlf s = s := by
  induction s using replaceCrlf.induct with
  | case1 => rfl
  | case2 c => rfl
  | case3 c d rest hcd ih => exact absurd (by simp [hcd.1]) h
  | case4 c d rest hcd ih =>
    rw [replaceCrlf, if_neg hcd, ih fun e => h (List.mem_cons_of_mem c e)]

/-- One `data:` line is its own data. -/
theorem eventData_data {data : Text} (hline : '\n' ∉ data)
    (hhead : ∀ c ∈ data.head?, isWhiteSpace c = false) :
    eventData ("data: ".toList ++ data) = data := by
  have hmem : '\n' ∉ "data: ".toList ++ data := by
    simp [hline]
  have hprefix : "data:".toList.isPrefixOf ("data: ".toList ++ data) = true := by
    simp
  have hdrop : ("data: ".toList ++ data).drop 5 = ' ' :: data := by
    simp
  unfold eventData
  rw [split_eq_singleton hmem, List.filter_cons_of_pos hprefix, List.filter_nil, List.map_singleton,
    hdrop]
  have htrim : trimStart (' ' :: data) = data := by
    have hspace : isWhiteSpace ' ' = true := by decide
    rw [trimStart, List.dropWhile_cons_of_pos hspace]
    exact trimStart_eq_self_of_head hhead
  rw [htrim]
  simp [join]

theorem eventData_keepAlive : eventData ": keep-alive".toList = [] := by
  decide

theorem encode_append (a b : Text) : encode (a ++ b) = encode a ++ encode b :=
  List.flatMap_append

/-- The block of each write. -/
def writtenBlocks (runId : Text) (sequence : Nat) : List StreamWrite → List Text
  | [] => []
  | .keepAlive :: rest => ": keep-alive".toList :: writtenBlocks runId sequence rest
  | .event fields :: rest =>
      ("data: ".toList ++ (sequencedEvent runId (sequence + 1) fields).stringify) ::
        writtenBlocks runId (sequence + 1) rest

def blocksText : List Text → Text
  | [] => []
  | block :: rest => block ++ '\n' :: '\n' :: blocksText rest

theorem flatten_writeStream (runId : Text) (sequence : Nat) (writes : List StreamWrite) :
    (writeStream runId sequence writes).flatten =
      encode (blocksText (writtenBlocks runId sequence writes)) := by
  induction writes generalizing sequence with
  | nil => rfl
  | cons write rest ih =>
    cases write with
    | keepAlive =>
      have hframe : ": keep-alive\n\n".toList = ": keep-alive".toList ++ ['\n', '\n'] := by decide
      simp only [writeStream, List.flatten_cons, ih, writtenBlocks, blocksText, hframe]
      rw [← encode_append, List.append_assoc]
      rfl
    | event fields =>
      simp only [writeStream, List.flatten_cons, ih, writtenBlocks, blocksText, eventFrame]
      rw [← encode_append, List.append_assoc]
      rfl

theorem splitBlocks_blocksText {blocks : List Text} (h : ∀ block ∈ blocks, '\n' ∉ block) :
    splitBlocks (blocksText blocks) = (blocks, []) := by
  induction blocks with
  | nil => rfl
  | cons block rest ih =>
    rw [blocksText, splitBlocks_block (h block List.mem_cons_self),
      ih fun b hb => h b (List.mem_cons_of_mem _ hb)]

theorem mem_blocksText {blocks : List Text} {c : Char} (h : c ∈ blocksText blocks) :
    c = '\n' ∨ ∃ block ∈ blocks, c ∈ block := by
  induction blocks with
  | nil => nomatch h
  | cons block rest ih =>
    simp only [blocksText, List.mem_append, List.mem_cons] at h
    obtain h | rfl | rfl | h := h
    · exact Or.inr ⟨block, List.mem_cons_self, h⟩
    · exact Or.inl rfl
    · exact Or.inl rfl
    · obtain rfl | ⟨b, hb, hc⟩ := ih h
      · exact Or.inl rfl
      · exact Or.inr ⟨b, List.mem_cons_of_mem _ hb, hc⟩

/-- A stream without CR has no pair to cut. -/
theorem keepsPairs_of_not_mem {chunks : List Bytes} (h : (0x0D : UInt8) ∉ chunks.flatten) :
    KeepsPairs chunks := by
  induction chunks with
  | nil => exact True.intro
  | cons chunk rest ih =>
    rw [List.flatten_cons, List.mem_append, not_or] at h
    refine ⟨?_, ih h.2⟩
    rintro ⟨hlast, _⟩
    exact h.1 (List.mem_of_getLast? hlast)

/-- A text decodes to itself where it does not start with U+FEFF. -/
theorem streamText_encode {s : Text} (h : s.head? ≠ some '\uFEFF') :
    streamText .new (encode s) = s := by
  have hkeep : (dropBom false s).2 = s := by
    cases s with
    | nil => rfl
    | cons c rest =>
      have hc : c ≠ '\uFEFF' := fun e => h (by rw [e]; rfl)
      simp [dropBom, hc]
  have hfinish : ∀ seen, (dropBom seen (flush start)).2 = [] := by decide
  simp only [streamText, TextDecoder.decode, TextDecoder.new, TextDecoder.finish, decode_encode,
    hkeep, hfinish, List.append_nil]

theorem writtenBlocks_head (runId : Text) (sequence : Nat) (writes : List StreamWrite) :
    (blocksText (writtenBlocks runId sequence writes)).head? ≠ some '\uFEFF' := by
  cases writes with
  | nil => simp [writtenBlocks, blocksText]
  | cons write rest =>
    cases write with
    | keepAlive => simp [writtenBlocks, blocksText]
    | event fields => simp [writtenBlocks, blocksText]

/-! ## 6. What the client reads of it -/

section

theorem versionOf_sequencedEvent (runId : Text) (sequence : Nat) (fields : List (Text × Json)) :
    versionOf (sequencedEvent runId sequence fields) = some .v2 := by
  have hne : "sequence".toList ≠ "runId".toList := by decide
  have hrun := Json.any_of_lookup ((Json.lookup_assign_of_ne
    (Json.assign fields "runId".toList (.str runId)) hne
    (.num (Nat.toDigits 10 sequence))).trans (Json.lookup_assign_self fields _ _))
  have hseq := Json.any_of_lookup (Json.lookup_assign_self
    (Json.assign fields "runId".toList (.str runId)) "sequence".toList
    (.num (Nat.toDigits 10 sequence)))
  simp only [versionOf, sequencedEvent, hasKey, hrun, hseq, Option.map_some, if_true]

theorem property_sequence (runId : Text) (sequence : Nat) (fields : List (Text × Json)) :
    property (sequencedEvent runId sequence fields) "sequence" =
      some (.num (Nat.toDigits 10 sequence)) :=
  Json.lookup_assign_self _ _ _

/-- Nothing is sent after a terminal event. -/
def TerminalLast : List Json → Prop
  | [] => True
  | event :: rest => (isTerminal event = true → rest = []) ∧ TerminalLast rest

/-- An event that can be written: its numbers are spelled plainly, and the host's parser gives
    back what its serializer wrote. -/
structure Serializable [JsonText] (event : Json) : Prop where
  plain : Json.plainNumbers event = true
  parse : JsonText.parse event.stringify = some event

/-- The host reads the digits of a safe integer as that integer. -/
def ReadsDigits [JsonNumber] (bound : Nat) : Prop :=
  ∀ n ≤ bound, JsonNumber.finite (Nat.toDigits 10 n) = some (n : ℚ)

theorem safeInteger_digits [JsonNumber] {bound n : Nat} (h : ReadsDigits bound) (hn : n ≤ bound)
    (hb : bound < twoTo53) : safeInteger (some (.num (Nat.toDigits 10 n))) = some (n : Int) := by
  have hq : ((n : ℚ).den = 1 ∧ (n : ℚ).num.natAbs < twoTo53) := by
    rw [Rat.den_natCast, Rat.num_natCast]
    exact ⟨rfl, by omega⟩
  simp only [safeInteger, h n hn]
  rw [if_pos hq, Rat.num_natCast]

/-- What is written on one line has no control characters. -/
theorem writtenBlocks_printable [JsonText] {runId : Text} {sequence : Nat} {writes : List StreamWrite}
    (hs : ∀ event ∈ sentEvents runId sequence writes, Serializable event) :
    ∀ block ∈ writtenBlocks runId sequence writes, ∀ c ∈ block, 0x20 ≤ c.toNat := by
  induction writes generalizing sequence with
  | nil => simp [writtenBlocks]
  | cons write rest ih =>
    cases write with
    | keepAlive =>
      rw [writtenBlocks, List.forall_mem_cons]
      exact ⟨Json.printable_of_all (by decide), ih hs⟩
    | event fields =>
      rw [sentEvents, List.forall_mem_cons] at hs
      rw [writtenBlocks, List.forall_mem_cons]
      refine ⟨?_, ih hs.2⟩
      intro c hc
      rw [List.mem_append] at hc
      obtain hc | hc := hc
      · exact Json.printable_of_all (by decide) c hc
      · exact Json.stringify_printable _ hs.1.plain c hc

variable [JsonText] [JsonNumber]

theorem readBlock_keepAlive (reader : EventReader) :
    readBlock reader ": keep-alive".toList = .ok (reader, []) := by
  unfold readBlock
  rw [if_pos (Or.inl eventData_keepAlive)]

/-- **The next event of a written stream is yielded.** -/
theorem readBlock_event {reader : EventReader} {runId : Text} {sequence bound : Nat}
    {fields : List (Text × Json)} (hs : Serializable (sequencedEvent runId (sequence + 1) fields))
    (hd : ReadsDigits bound) (hn : sequence + 1 ≤ bound) (hb : bound < twoTo53)
    (hp : reader.protocol.getD .v2 = .v2) (hc : reader.completeSeen = false)
    (hl : reader.lastSequence = sequence) :
    readBlock reader ("data: ".toList ++ (sequencedEvent runId (sequence + 1) fields).stringify) =
      .ok (⟨isTerminal (sequencedEvent runId (sequence + 1) fields), some .v2, sequence + 1⟩,
        [sequencedEvent runId (sequence + 1) fields]) := by
  have hprint := Json.stringify_printable _ hs.plain
  have hline : '\n' ∉ (sequencedEvent runId (sequence + 1) fields).stringify := by
    intro hmem
    exact absurd (hprint _ hmem) (by decide)
  have hhead : (sequencedEvent runId (sequence + 1) fields).stringify.head? = some '\x7b' := rfl
  have hdata := eventData_data hline (by
    intro c hc
    rw [hhead] at hc
    cases hc
    decide)
  have hread : ¬ (eventData ("data: ".toList ++
      (sequencedEvent runId (sequence + 1) fields).stringify) = [] ∨
      eventData ("data: ".toList ++ (sequencedEvent runId (sequence + 1) fields).stringify) =
        "[DONE]".toList) := by
    rw [hdata]
    rintro (hnil | hdone)
    · rw [hnil] at hhead
      nomatch hhead
    · rw [hdone] at hhead
      exact absurd hhead (by decide)
  have hnext := safeInteger_digits hd hn hb
  have hlater : ¬ ((sequence + 1 : Nat) : Int) ≤ reader.lastSequence := by omega
  unfold readBlock
  rw [if_neg hread, hdata, hs.parse]
  simp only [readEvent, versionOf_sequencedEvent, hp, ne_eq, not_true_eq_false, if_false,
    property_sequence, hnext, if_neg hlater, yieldEvent, hc, Bool.false_eq_true]
  split
  · next ht => simp [ht]
  · next ht => simp [ht]

/-- **A written stream reads as its events.** -/
theorem readBlocks_written {runId : Text} {bound : Nat} (hd : ReadsDigits bound)
    (hb : bound < twoTo53) (writes : List StreamWrite) {sequence : Nat} {reader : EventReader}
    (hs : ∀ event ∈ sentEvents runId sequence writes, Serializable event)
    (ht : TerminalLast (sentEvents runId sequence writes))
    (hn : sequence + (sentEvents runId sequence writes).length ≤ bound)
    (hp : reader.protocol.getD .v2 = .v2)
    (hc : reader.completeSeen = true → sentEvents runId sequence writes = [])
    (hl : reader.lastSequence = sequence) :
    ∃ reader', readBlocks reader (writtenBlocks runId sequence writes) =
        (sentEvents runId sequence writes, .ok reader') ∧
      reader'.completeSeen =
        (reader.completeSeen || (sentEvents runId sequence writes).any isTerminal) := by
  induction writes generalizing sequence reader with
  | nil => exact ⟨reader, rfl, by simp [sentEvents]⟩
  | cons write rest ih =>
    cases write with
    | keepAlive =>
      obtain ⟨reader', hread, hseen⟩ := ih hs ht hn hp hc hl
      refine ⟨reader', ?_, hseen⟩
      simp only [writtenBlocks, readBlocks, readBlock_keepAlive, hread, List.nil_append, sentEvents]
    | event fields =>
      simp only [sentEvents, List.length_cons, List.forall_mem_cons, TerminalLast] at hs ht hn hc ⊢
      have hfresh : reader.completeSeen = false := by
        cases hseen : reader.completeSeen with
        | false => rfl
        | true => exact absurd (hc hseen) (List.cons_ne_nil _ _)
      have hone := readBlock_event hs.1 hd (show sequence + 1 ≤ bound by omega) hb hp hfresh hl
      obtain ⟨reader', hread, hseen⟩ := @ih (sequence + 1)
        ⟨isTerminal (sequencedEvent runId (sequence + 1) fields), some .v2, (sequence : Int) + 1⟩
        hs.2 ht.2 (by omega) rfl ht.1 (by simp)
      refine ⟨reader', ?_, ?_⟩
      · simp only [writtenBlocks, readBlocks, hone, hread, List.singleton_append]
      · rw [hseen, hfresh]
        simp

/-- **Every cut of a written stream reads as its events**, with an error after them only where
    the stream ends without its terminal event. -/
theorem parse_written {runId : Text} {writes : List StreamWrite} {chunks : List Bytes}
    (hchunks : chunks.flatten = (writeStream runId 0 writes).flatten)
    (hs : ∀ event ∈ sentEvents runId 0 writes, Serializable event)
    (ht : TerminalLast (sentEvents runId 0 writes))
    (hb : (sentEvents runId 0 writes).length < twoTo53)
    (hd : ReadsDigits (sentEvents runId 0 writes).length) :
    parseChatEventStream (some chunks) =
      (sentEvents runId 0 writes, if (sentEvents runId 0 writes).any isTerminal then none
        else some (.protocolError "连接中断，未收到完整的回答。请刷新对话历史后重试。")) := by
  have hprint := writtenBlocks_printable hs
  have hplain (c : Char) (hc : c.toNat < 0x20) (hne : c ≠ '\n') :
      c ∉ blocksText (writtenBlocks runId 0 writes) := by
    intro hmem
    obtain rfl | ⟨block, hblock, hin⟩ := mem_blocksText hmem
    · exact hne rfl
    · have := hprint block hblock c hin
      omega
  have hbytes : chunks.flatten = encode (blocksText (writtenBlocks runId 0 writes)) :=
    hchunks.trans (flatten_writeStream runId 0 writes)
  have hcr : (0x0D : UInt8) ∉ chunks.flatten := by
    intro hmem
    rw [hbytes] at hmem
    obtain ⟨c, hc, hcr⟩ := mem_encode_ascii hmem (by decide)
    have : c = '\r' := Char.toNat_inj.mp hcr
    subst this
    exact hplain '\r' (by decide) (by decide) hc
  have hlines : ∀ block ∈ writtenBlocks runId 0 writes, '\n' ∉ block := by
    intro block hblock hin
    exact absurd (hprint block hblock _ hin) (by decide)
  obtain ⟨reader', hread, hseen⟩ := @readBlocks_written _ _ _ _ hd hb writes 0 .new hs ht
    (Nat.le_of_eq (Nat.zero_add _)) rfl (fun h => nomatch h) rfl
  rw [parse_eq (keepsPairs_of_not_mem hcr), hbytes,
    streamText_encode (writtenBlocks_head runId 0 writes),
    replaceCrlf_eq_self (hplain '\r' (by decide) (by decide)), splitBlocks_blocksText hlines, hread]
  simp only [conclude, hseen, EventReader.new, Bool.false_or]

/-- **The event stream is chunk-invariant where no chunk ends inside a CRLF pair, and every cut of
    a stream the server wrote yields exactly its events.** -/
theorem event_stream_round_trip :
    (∀ chunks : List Bytes, KeepsPairs chunks →
      parseChatEventStream (some chunks) = parseChatEventStream (some [chunks.flatten])) ∧
    ∀ (runId : Text) (writes : List StreamWrite) (chunks : List Bytes),
      chunks.flatten = (writeStream runId 0 writes).flatten →
      (∀ event ∈ sentEvents runId 0 writes, Serializable event) →
      TerminalLast (sentEvents runId 0 writes) →
      (sentEvents runId 0 writes).length < twoTo53 →
      ReadsDigits (sentEvents runId 0 writes).length →
      parseChatEventStream (some chunks) =
        (sentEvents runId 0 writes, if (sentEvents runId 0 writes).any isTerminal then none
          else some (.protocolError "连接中断，未收到完整的回答。请刷新对话历史后重试。")) := by
  refine ⟨?_, ?_⟩
  · intro chunks h
    have hone : KeepsPairs [chunks.flatten] := ⟨fun e => by simp at e, True.intro⟩
    rw [parse_eq h, parse_eq hone, List.flatten_singleton]
  · intro runId writes chunks hchunks hs ht hb hd
    exact parse_written hchunks hs ht hb hd

end

/-- One event between two keep-alives, byte by byte. -/
theorem event_stream_round_trip_bytes :
    let event := sequencedEvent "r".toList 1 [("type".toList, Json.text "run.completed")]
    let _ : JsonText := ⟨fun text => if text = event.stringify then some event else none⟩
    let _ : JsonNumber :=
      ⟨fun text => if text = "0".toList then some 0 else if text = "1".toList then some 1 else none⟩
    parseChatEventStream (some ((writeStream "r".toList 0 [.keepAlive,
      .event [("type".toList, Json.text "run.completed")], .keepAlive]).flatten.map fun b => [b])) =
      ([event], none) := by
  intro event parser numbers
  have hflat (bytes : Bytes) : (bytes.map fun b => [b]).flatten = bytes := by
    induction bytes with
    | nil => rfl
    | cons b rest ih => simp [ih]
  refine event_stream_round_trip.2 "r".toList _ _ (hflat _) ?_ ?_ (by decide) ?_
  · intro e he
    have : e = event := List.mem_singleton.mp he
    subst this
    exact ⟨by decide +kernel, if_pos rfl⟩
  · exact ⟨fun _ => rfl, True.intro⟩
  · intro n hn
    have : n = 0 ∨ n = 1 := by
      have hlen : n ≤ 1 := hn
      omega
    obtain rfl | rfl := this
    · exact if_pos rfl
    · have hne : Nat.toDigits 10 1 ≠ "0".toList := by decide
      exact (if_neg hne).trans (if_pos rfl)

/-! ## 7. A pair that is cut -/

/-- Every CR is the first of a CRLF pair. -/
def crlfLineEnds : Bytes → Bool
  | [] => true
  | b :: rest => (b != 0x0D || rest.head? == some 0x0A) && crlfLineEnds rest

def completeEvent : Json := Json.record [("type", Json.text "complete")]

/-- A host that parses one event. -/
@[reducible] def completeParser : JsonText :=
  ⟨fun text => if text = completeEvent.stringify then some completeEvent else none⟩

/-- An event whose block ends in two CRLF pairs, the second of which is cut. -/
def cutChunks : List Bytes :=
  [encode ("data: ".toList ++ completeEvent.stringify ++ "\r\n\r".toList), encode "\n".toList]

/-- The whole stream yields its event; cut inside the last pair it yields none. -/
theorem event_stream_cut :
    ¬ ∀ [JsonText] [JsonNumber] (chunks : List Bytes), crlfLineEnds chunks.flatten = true →
      (parseChatEventStream (some chunks)).1 = (parseChatEventStream (some [chunks.flatten])).1 := by
  intro h
  let _ : JsonText := completeParser
  let _ : JsonNumber := ⟨fun _ => none⟩
  have hcut := congrArg List.length (h cutChunks (by decide +kernel))
  revert hcut
  decide +kernel

end OpenVac.Chat
