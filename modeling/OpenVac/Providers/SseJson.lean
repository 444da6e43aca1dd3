/-
  File:      OpenVac/Providers/SseJson.lean
  Subject:   The JSON events of a provider's stream: `parseSseJson` of server/providers/deepseek.ts.

  * `parseSseJson` -- chunk by chunk: what is not yet a whole block is kept, normalised, for the
    next read; `referenceSse` -- the whole sequence at once.
  * `LfOrCrlf` -- LF follows every CR; `splitBlocks_normalised` -- normalising and splitting what
    is kept once more is normalising and splitting the whole.
  * `readSse_cons` -- one read; `readSse_eq`, `readSse_long` -- the run of the chunks.
  * `parse_eq_reference_iff` -- both agree exactly where no read leaves more than an event's bytes
    in the buffer; `cut_blank_line`.
-/
import Mathlib.Data.List.Infix
import OpenVac.Chat.EventStream
import OpenVac.Lib.FollowedBy

namespace OpenVac.Providers

open JsString JsNumber Utf8
open Chat (Bytes replaceCrlf splitBlocks pushChar eventData streamText)

/-! ## 1. The parser -/

def DEFAULT_SSE_EVENT_MAX_BYTES : Nat := 256 * 1024

def DEFAULT_SSE_STREAM_MAX_BYTES : Nat := 4 * 1024 * 1024

structure SseParseLimits where
  maxEventBytes : Option ℚ
  maxStreamBytes : Option ℚ
  deriving DecidableEq, Repr

/-- What the generator throws. -/
inductive SseFailure where
  | typeError (message : Text)
  | providerResponseError (message : Text)
  deriving DecidableEq, Repr

def positiveLimit (value : Option ℚ) (fallback : Nat) (label : String) : Except SseFailure Nat :=
  let resolved := value.getD fallback
  if resolved.den = 1 ∧ resolved.num.natAbs < twoTo53 ∧ 0 < resolved then
    .ok resolved.num.natAbs
  else .error (.typeError (label.toList ++ " must be a positive integer.".toList))

def sseLimitError (detail : Text) : SseFailure :=
  .providerResponseError ("DeepSeek SSE ".toList ++ detail ++ ".".toList)

def streamExceeds (maxStreamBytes : Nat) : SseFailure :=
  sseLimitError ("stream exceeds ".toList ++ Nat.toDigits 10 maxStreamBytes ++ " bytes".toList)

def eventExceeds (maxBytes : Nat) : SseFailure :=
  sseLimitError ("event exceeds ".toList ++ Nat.toDigits 10 maxBytes ++ " bytes".toList)

def malformedJson : SseFailure :=
  .providerResponseError "DeepSeek returned malformed SSE JSON.".toList

/-- What a block is. -/
inductive SseBlock where
  | skipped
  | done
  | value (value : Json)
  | malformed

/-- `Buffer.byteLength(block, "utf8")`. -/
def byteLength (block : Text) : Nat := (encode block).length

/-- How a run over some blocks ends: with more to read, at `[DONE]`, or with an error. -/
inductive BlocksEnd where
  | pending
  | done
  | failed (failure : SseFailure)
  deriving DecidableEq, Repr

/-- What follows the blocks, if they do not end the generator. -/
def afterBlocks (outcome : List Json × BlocksEnd) (next : List Json × Option SseFailure) :
    List Json × Option SseFailure :=
  match outcome with
  | (values, .pending) => (values ++ next.1, next.2)
  | (values, .done) => (values, none)
  | (values, .failed failure) => (values, some failure)

section

variable [JsonText]

def parseSseBlock (block : Text) : SseBlock :=
  let data := trim (eventData block)
  if data = [] then .skipped
  else if data = "[DONE]".toList then .done
  else
    match JsonText.parse data with
    | some value => .value value
    | none => .malformed

/-- The loop over the complete blocks. -/
def readSseBlocks (maxEventBytes : Nat) : List Text → List Json × BlocksEnd
  | [] => ([], .pending)
  | block :: rest =>
      if maxEventBytes < byteLength block then ([], .failed (eventExceeds maxEventBytes))
      else
        match parseSseBlock block with
        | .skipped => readSseBlocks maxEventBytes rest
        | .done => ([], .done)
        | .malformed => ([], .failed malformedJson)
        | .value value =>
            (value :: (readSseBlocks maxEventBytes rest).1, (readSseBlocks maxEventBytes rest).2)

/-- The block that the end of the stream leaves. -/
def readLast (maxEventBytes : Nat) (buffer : Text) : List Json × Option SseFailure :=
  if maxEventBytes < byteLength buffer then ([], some (eventExceeds maxEventBytes))
  else
    match parseSseBlock buffer with
    | .skipped | .done => ([], none)
    | .malformed => ([], some malformedJson)
    | .value value => ([value], none)

/-- `while (true)`: the chunks that `reader.read()` still yields. -/
def readSse (maxEventBytes maxStreamBytes : Nat) (decoder : TextDecoder) (buffer : Text)
    (streamBytes : Nat) : List Bytes → List Json × Option SseFailure
  | [] =>
      let (blocks, buffer') := splitBlocks (replaceCrlf (buffer ++ decoder.finish))
      afterBlocks (readSseBlocks maxEventBytes blocks) (readLast maxEventBytes buffer')
  | chunk :: rest =>
      if maxStreamBytes < streamBytes + chunk.length then ([], some (streamExceeds maxStreamBytes))
      else
        let (decoder', text) := decoder.decode chunk
        let (blocks, buffer') := splitBlocks (replaceCrlf (buffer ++ text))
        afterBlocks (readSseBlocks maxEventBytes blocks)
          (if maxEventBytes < byteLength buffer' then ([], some (eventExceeds maxEventBytes))
            else
              readSse maxEventBytes maxStreamBytes decoder' buffer' (streamBytes + chunk.length)
                rest)

/-- The values yielded for the chunks of a stream, and what is thrown after them. -/
def parseSseJson (limits : SseParseLimits) (chunks : List Bytes) :
    List Json × Option SseFailure :=
  match positiveLimit limits.maxEventBytes DEFAULT_SSE_EVENT_MAX_BYTES "maxEventBytes",
      positiveLimit limits.maxStreamBytes DEFAULT_SSE_STREAM_MAX_BYTES "maxStreamBytes" with
  | .error failure, _ => ([], some failure)
  | .ok _, .error failure => ([], some failure)
  | .ok maxEventBytes, .ok maxStreamBytes =>
      readSse maxEventBytes maxStreamBytes TextDecoder.new [] 0 chunks

/-! ## 2. The reference -/

/-- The values of blocks up to the first `[DONE]` or malformed one. -/
def readEvents : List Text → List Json × BlocksEnd
  | [] => ([], .pending)
  | block :: rest =>
      match parseSseBlock block with
      | .skipped => readEvents rest
      | .done => ([], .done)
      | .malformed => ([], .failed malformedJson)
      | .value value => (value :: (readEvents rest).1, (readEvents rest).2)

/-- The blocks of a text between its blank lines, the last one included. -/
def eventBlocks (text : Text) : List Text :=
  (splitBlocks (replaceCrlf text)).1 ++ [(splitBlocks (replaceCrlf text)).2]

/-- The whole sequence, decoded and split at once. -/
def referenceSse (bytes : Bytes) : List Json × Option SseFailure :=
  afterBlocks (readEvents (eventBlocks (streamText .new bytes))) ([], none)

end

/-! ## 3. Line ends -/

/-- Every CR of a sequence of bytes is followed by LF, or ends it. -/
def LfOrCrlf (bytes : Bytes) : Prop := FollowedBy 0x0D 0x0A bytes

/-- A byte that writes a CR is one, and ends what it writes between two characters. -/
theorem step_cr {s : State} {b : Nat} (h : '\r' ∈ (step s b).2) :
    b = 0x0D ∧ ∃ before, '\r' ∉ before ∧ step s b = (start, before ++ ['\r']) := by
  have hr : (0 : Nat) < '\r'.toNat ∧ '\r'.toNat < 0x80 := by decide
  have hfirst {b : Nat} (h : '\r' ∈ (first b).2) : b = 0x0D ∧ first b = (start, ['\r']) := by
    have hb : b = 0x0D := first_ascii hr h
    subst hb
    exact ⟨rfl, if_pos (by decide)⟩
  by_cases hs : s.remaining = 0
  · rw [step_of_remaining_eq hs] at h ⊢
    obtain ⟨hb, hf⟩ := hfirst h
    exact ⟨hb, [], List.not_mem_nil, hf⟩
  · obtain hf | ⟨n, hn, hf⟩ | ⟨hf, -⟩ := step_inside hs b
    · rw [hf] at h ⊢
      rcases List.mem_cons.mp h with hrep | h
      · exact absurd hrep.symm (replacement_ne hr.2)
      · obtain ⟨hb, hf⟩ := hfirst h
        refine ⟨hb, [replacement], ?_, ?_⟩
        · intro hmem
          exact replacement_ne hr.2 (List.mem_singleton.mp hmem).symm
        · rw [hf]
          rfl
    · rw [hf] at h
      exact absurd (List.mem_singleton.mp h).symm (ofNat_ne_ascii hn hr)
    · rw [hf] at h
      exact absurd h List.not_mem_nil

/-- **Bytes in which LF follows CR are a text in which it does.** -/
theorem decode_followedBy {bytes : Bytes} (h : LfOrCrlf bytes) (s : State) :
    FollowedBy '\r' '\n' ((Utf8.decode s bytes).2 ++ flush (Utf8.decode s bytes).1) := by
  induction bytes generalizing s with
  | nil =>
    rw [Utf8.decode, List.nil_append, flush]
    split
    · exact trivial
    · exact trivial
  | cons b rest ih =>
    have hrest := ih (followedBy_tail h) (step s b.toNat).1
    rw [Utf8.decode, List.append_assoc]
    by_cases hcr : '\r' ∈ (step s b.toNat).2
    · obtain ⟨hb, before, hbefore, hstep⟩ := step_cr hcr
      rw [hstep, List.append_assoc]
      refine followedBy_append_plain hbefore ?_
      cases rest with
      | nil => exact trivial
      | cons d more =>
        -- the byte after a CR is a LF, which is a character of its own
        have hd : d = 0x0A := h.1 (UInt8.toNat_inj.mp hb)
        subst hd
        rw [hstep] at hrest
        exact followedBy_pair hrest
    · exact followedBy_append_plain hcr hrest

theorem streamText_followedBy {bytes : Bytes} (h : LfOrCrlf bytes) :
    FollowedBy '\r' '\n' (streamText .new bytes) := by
  have hfollowed := decode_followedBy h start
  have hdrop {t : Text} (ht : FollowedBy '\r' '\n' t) (seen : Bool) :
      FollowedBy '\r' '\n' (dropBom seen t).2 := by
    cases t with
    | nil => exact ht
    | cons c rest =>
      simp only [dropBom]
      split
      · exact followedBy_tail ht
      · exact ht
  have hall : streamText .new bytes =
      (dropBom false ((Utf8.decode start bytes).2 ++ flush (Utf8.decode start bytes).1)).2 := by
    rw [dropBom_append]
    rfl
  rw [hall]
  exact hdrop hfollowed false

/-- A CR stands nowhere but at the end. -/
def CrLast : Text → Prop
  | [] => True
  | [_] => True
  | c :: d :: rest => c ≠ '\r' ∧ CrLast (d :: rest)

theorem crLast_cons {c : Char} {s : Text} (hc : c ≠ '\r') (h : CrLast s) : CrLast (c :: s) := by
  cases s with
  | nil => exact trivial
  | cons d rest => exact ⟨hc, h⟩

theorem replaceCrlf_cons {c : Char} (hc : c ≠ '\r') (s : Text) :
    replaceCrlf (c :: s) = c :: replaceCrlf s := by
  cases s with
  | nil => rfl
  | cons d rest => simp [replaceCrlf, hc]

theorem crLast_replaceCrlf {s : Text} (h : FollowedBy '\r' '\n' s) : CrLast (replaceCrlf s) := by
  induction s using OpenVac.Chat.replaceCrlf.induct with
  | case1 => exact trivial
  | case2 c => exact trivial
  | case3 c d rest hcd ih =>
    rw [replaceCrlf, if_pos hcd]
    exact crLast_cons (by decide) (ih (followedBy_tail (followedBy_tail h)))
  | case4 c d rest hcd ih =>
    rw [replaceCrlf, if_neg hcd]
    exact crLast_cons (fun hc => hcd ⟨hc, h.1 hc⟩) (ih h.2)

/-- What is normalised already may be normalised with what follows. -/
theorem replaceCrlf_replaceCrlf {s t : Text} (h : FollowedBy '\r' '\n' (s ++ t)) :
    replaceCrlf (replaceCrlf s ++ t) = replaceCrlf (s ++ t) := by
  induction s using OpenVac.Chat.replaceCrlf.induct with
  | case1 => rfl
  | case2 c => rfl
  | case3 c d rest hcd ih =>
    have hrest : FollowedBy '\r' '\n' (rest ++ t) := followedBy_tail (followedBy_tail h)
    rw [replaceCrlf, if_pos hcd, List.cons_append, replaceCrlf_cons (by decide), ih hrest,
      List.cons_append, List.cons_append, replaceCrlf, if_pos hcd]
  | case4 c d rest hcd ih =>
    have hc : c ≠ '\r' := fun hc => hcd ⟨hc, h.1 hc⟩
    have hih := ih h.2
    rw [replaceCrlf, if_neg hcd, List.cons_append, replaceCrlf_cons hc, hih]
    exact (replaceCrlf_cons hc _).symm

/-! ## 4. The buffer -/

/-- Splitting what the blocks leave, normalised with what follows. -/
theorem splitBlocks_crLast {s : Text} (h : CrLast s) (t : Text) :
    splitBlocks (replaceCrlf (s ++ t)) =
      ((splitBlocks s).1 ++ (splitBlocks (replaceCrlf ((splitBlocks s).2 ++ t))).1,
        (splitBlocks (replaceCrlf ((splitBlocks s).2 ++ t))).2) := by
  induction s using OpenVac.Chat.splitBlocks.induct with
  | case1 => rfl
  | case2 c => rfl
  | case3 c d rest hcd ih =>
    obtain ⟨rfl, rfl⟩ := hcd
    have hrest : CrLast rest := by
      cases rest with
      | nil => exact trivial
      | cons e more => exact h.2.2
    rw [List.cons_append, List.cons_append, replaceCrlf_cons (by decide),
      replaceCrlf_cons (by decide)]
    simp only [splitBlocks, and_self, if_true, ih hrest, List.cons_append]
  | case4 c d rest hcd ih =>
    have hcons : splitBlocks (c :: d :: rest) = pushChar c (splitBlocks (d :: rest)) := by
      simp only [splitBlocks, if_neg hcd]
    cases hs : splitBlocks (d :: rest) with
    | mk blocks left =>
      cases blocks with
      | nil =>
        -- no block yet: all of it is left
        have hleft : left = d :: rest := by
          have := Chat.splitBlocks_rest (s := d :: rest) (by rw [hs])
          rw [hs] at this
          exact this
        rw [hcons, hs, hleft]
        rfl
      | cons block more =>
        have hd : d ≠ '\r' := by
          cases rest with
          | nil => simp [splitBlocks] at hs
          | cons e more => exact h.2.1
        have happ : splitBlocks (replaceCrlf (c :: d :: rest ++ t)) =
            pushChar c (splitBlocks (replaceCrlf (d :: rest ++ t))) := by
          rw [List.cons_append, replaceCrlf_cons h.1, List.cons_append,
            replaceCrlf_cons hd]
          simp only [splitBlocks, if_neg hcd]
        rw [happ, ih h.2, hcons, hs]
        rfl

/-- **What is kept, normalised and split with what follows, is the whole so treated.** -/
theorem splitBlocks_normalised {s t : Text} (h : FollowedBy '\r' '\n' (s ++ t)) :
    splitBlocks (replaceCrlf (s ++ t)) =
      ((splitBlocks (replaceCrlf s)).1 ++
          (splitBlocks (replaceCrlf ((splitBlocks (replaceCrlf s)).2 ++ t))).1,
        (splitBlocks (replaceCrlf ((splitBlocks (replaceCrlf s)).2 ++ t))).2) := by
  rw [← replaceCrlf_replaceCrlf h]
  exact splitBlocks_crLast (crLast_replaceCrlf (followedBy_left h)) t

/-! ## 5. The run of the chunks -/

section Runs

variable [JsonText]

/-- What the chunks are as a text, before the end of the stream is known. -/
def decodedText (chunks : List Bytes) : Text := (TextDecoder.new.decode chunks.flatten).2

/-- The whole blocks of the chunks. -/
def completeBlocks (chunks : List Bytes) : List Text :=
  (splitBlocks (replaceCrlf (decodedText chunks))).1

/-- What the chunks leave of a block that is not whole yet. -/
def openBlock (chunks : List Bytes) : Text :=
  (splitBlocks (replaceCrlf (decodedText chunks))).2

/-- No whole block of the chunks ends the generator. -/
def Undecided (chunks : List Bytes) : Prop := (readEvents (completeBlocks chunks)).2 = .pending

theorem readEvents_append (a b : List Text) :
    readEvents (a ++ b) =
      match readEvents a with
      | (values, .pending) => (values ++ (readEvents b).1, (readEvents b).2)
      | outcome => outcome := by
  induction a with
  | nil => simp [readEvents]
  | cons block rest ih =>
    simp only [List.cons_append, readEvents]
    cases parseSseBlock block with
    | skipped => exact ih
    | done => rfl
    | malformed => rfl
    | value value =>
      rw [ih]
      cases hr : readEvents rest with
      | mk values ending => cases ending <;> rfl

theorem readEvents_append_pending {a : List Text} (h : (readEvents a).2 = .pending)
    (b : List Text) :
    readEvents (a ++ b) = ((readEvents a).1 ++ (readEvents b).1, (readEvents b).2) := by
  rw [readEvents_append]
  cases hr : readEvents a with
  | mk values ending =>
    rw [hr] at h
    cases h
    rfl

theorem readEvents_append_decided {a : List Text} (h : (readEvents a).2 ≠ .pending)
    (b : List Text) : readEvents (a ++ b) = readEvents a := by
  rw [readEvents_append]
  cases hr : readEvents a with
  | mk values ending =>
    rw [hr] at h
    cases ending with
    | pending => exact absurd rfl h
    | done => rfl
    | failed failure => rfl

/-- Blocks that fit are read as the reference reads them. -/
theorem readSseBlocks_eq {maxEventBytes : Nat} {blocks : List Text}
    (h : ∀ block ∈ blocks, byteLength block ≤ maxEventBytes) :
    readSseBlocks maxEventBytes blocks = readEvents blocks := by
  induction blocks with
  | nil => rfl
  | cons block rest ih =>
    have hblock := h block List.mem_cons_self
    have hrest := ih fun other hother => h other (List.mem_cons_of_mem _ hother)
    unfold readSseBlocks readEvents
    rw [if_neg (Nat.not_lt.mpr hblock), hrest]

omit [JsonText] in
theorem decoder_append (chunks : List Bytes) (chunk : Bytes) :
    TextDecoder.new.decode (chunks ++ [chunk]).flatten =
      (((TextDecoder.new.decode chunks.flatten).1.decode chunk).1,
        decodedText chunks ++ ((TextDecoder.new.decode chunks.flatten).1.decode chunk).2) := by
  rw [List.flatten_append, List.flatten_singleton, TextDecoder.decode_append]
  rfl

omit [JsonText] in
theorem decodedText_append (chunks more : List Bytes) :
    decodedText (chunks ++ more) =
      decodedText chunks ++ ((TextDecoder.new.decode chunks.flatten).1.decode more.flatten).2 := by
  unfold decodedText
  rw [List.flatten_append, TextDecoder.decode_append]

omit [JsonText] in
theorem streamText_append (chunks more : List Bytes) :
    streamText .new (chunks ++ more).flatten =
      decodedText chunks ++ streamText (TextDecoder.new.decode chunks.flatten).1 more.flatten := by
  unfold streamText decodedText
  rw [List.flatten_append, TextDecoder.decode_append, List.append_assoc]

omit [JsonText] in
/-- **One more chunk**: the blocks it completes, and what it leaves. -/
theorem blocks_append {chunks more : List Bytes} (h : LfOrCrlf (chunks ++ more).flatten) :
    completeBlocks (chunks ++ more) = completeBlocks chunks ++
        (splitBlocks (replaceCrlf (openBlock chunks ++
          ((TextDecoder.new.decode chunks.flatten).1.decode more.flatten).2))).1 ∧
      openBlock (chunks ++ more) =
        (splitBlocks (replaceCrlf (openBlock chunks ++
          ((TextDecoder.new.decode chunks.flatten).1.decode more.flatten).2))).2 := by
  have hfollowed : FollowedBy '\r' '\n' (decodedText (chunks ++ more)) :=
    followedBy_left (streamText_followedBy h)
  rw [decodedText_append] at hfollowed
  unfold completeBlocks openBlock
  rw [decodedText_append, splitBlocks_normalised hfollowed]
  exact ⟨rfl, rfl⟩

omit [JsonText] in
/-- **The end of the stream**: the blocks of the whole text. -/
theorem eventBlocks_append {chunks more : List Bytes} (h : LfOrCrlf (chunks ++ more).flatten) :
    eventBlocks (streamText .new (chunks ++ more).flatten) = completeBlocks chunks ++
      eventBlocks (openBlock chunks ++
        streamText (TextDecoder.new.decode chunks.flatten).1 more.flatten) := by
  have hfollowed := streamText_followedBy h
  rw [streamText_append] at hfollowed ⊢
  unfold eventBlocks completeBlocks openBlock
  rw [splitBlocks_normalised hfollowed, List.append_assoc]

/-- The sequence is within the limits: in all, and each event by itself. -/
structure WithinLimits (maxEventBytes maxStreamBytes : Nat) (bytes : Bytes) : Prop where
  stream : bytes.length ≤ maxStreamBytes
  events : ∀ block ∈ eventBlocks (streamText .new bytes), byteLength block ≤ maxEventBytes

omit [JsonText] in
theorem afterBlocks_decided {outcome : List Json × BlocksEnd} (h : outcome.2 ≠ .pending)
    (next other : List Json × Option SseFailure) :
    afterBlocks outcome next = afterBlocks outcome other := by
  obtain ⟨values, ending⟩ := outcome
  cases ending with
  | pending => exact absurd rfl h
  | done => rfl
  | failed failure => rfl

theorem afterBlocks_append (a b : List Text) (next : List Json × Option SseFailure) :
    afterBlocks (readEvents (a ++ b)) next =
      afterBlocks (readEvents a) (afterBlocks (readEvents b) next) := by
  by_cases h : (readEvents a).2 = .pending
  · rw [readEvents_append_pending h]
    cases ha : readEvents a with
    | mk values ending =>
      rw [ha] at h
      cases h
      cases hb : readEvents b with
      | mk more ending =>
        cases ending with
        | pending => exact congrArg (·, next.2) (List.append_assoc values more next.1)
        | done => rfl
        | failed failure => rfl
  · rw [readEvents_append_decided h]
    exact afterBlocks_decided h _ _

/-- The last block, if it fits. -/
theorem readLast_eq {maxEventBytes : Nat} {buffer : Text} (h : byteLength buffer ≤ maxEventBytes) :
    readLast maxEventBytes buffer = afterBlocks (readEvents [buffer]) ([], none) := by
  unfold readLast readEvents
  rw [if_neg (Nat.not_lt.mpr h)]
  cases parseSseBlock buffer <;> rfl

omit [JsonText] in
/-- What the blocks of the rest are, one chunk on. -/
theorem eventBlocks_step {read rest : List Bytes} {chunk : Bytes}
    (h : LfOrCrlf (read ++ chunk :: rest).flatten) :
    eventBlocks (openBlock read ++
        streamText (TextDecoder.new.decode read.flatten).1 (chunk :: rest).flatten) =
      (splitBlocks (replaceCrlf (openBlock read ++
          ((TextDecoder.new.decode read.flatten).1.decode chunk).2))).1 ++
        eventBlocks (openBlock (read ++ [chunk]) ++
          streamText (TextDecoder.new.decode (read ++ [chunk]).flatten).1 rest.flatten) := by
  have happ : read ++ chunk :: rest = read ++ [chunk] ++ rest := by simp
  have hprefix : LfOrCrlf (read ++ [chunk]).flatten := by
    rw [happ, List.flatten_append] at h
    exact followedBy_left h
  have hwhole := eventBlocks_append h
  have hnext := eventBlocks_append (happ ▸ h)
  have hblocks := (blocks_append hprefix).1
  rw [List.flatten_singleton] at hblocks
  rw [happ, hnext, hblocks, List.append_assoc] at hwhole
  exact (List.append_cancel_left hwhole).symm

/-- The blocks that a read completes. -/
abbrev readBlocks (read : List Bytes) (chunk : Bytes) : List Text :=
  (splitBlocks (replaceCrlf (openBlock read ++
    ((TextDecoder.new.decode read.flatten).1.decode chunk).2))).1

theorem undecided_step {read rest : List Bytes} {chunk : Bytes}
    (hlines : LfOrCrlf (read ++ chunk :: rest).flatten) (h : Undecided read) :
    Undecided (read ++ [chunk]) ↔ (readEvents (readBlocks read chunk)).2 = .pending := by
  have hread : LfOrCrlf (read ++ [chunk]).flatten := by
    rw [List.append_cons, List.flatten_append] at hlines
    exact followedBy_left hlines
  have hcomplete := (blocks_append hread).1
  rw [List.flatten_singleton] at hcomplete
  unfold Undecided
  rw [hcomplete, readEvents_append_pending h]

/-- **One read** of a stream within its limits. -/
theorem readSse_cons {maxEventBytes maxStreamBytes : Nat} {read rest : List Bytes} {chunk : Bytes}
    (hlines : LfOrCrlf (read ++ chunk :: rest).flatten)
    (hlimits : WithinLimits maxEventBytes maxStreamBytes (read ++ chunk :: rest).flatten) :
    readSse maxEventBytes maxStreamBytes (TextDecoder.new.decode read.flatten).1 (openBlock read)
        read.flatten.length (chunk :: rest) =
      afterBlocks (readEvents (readBlocks read chunk))
        (if maxEventBytes < byteLength (openBlock (read ++ [chunk])) then
          ([], some (eventExceeds maxEventBytes))
        else
          readSse maxEventBytes maxStreamBytes (TextDecoder.new.decode (read ++ [chunk]).flatten).1
            (openBlock (read ++ [chunk])) (read ++ [chunk]).flatten.length rest) := by
  have hread : LfOrCrlf (read ++ [chunk]).flatten := by
    rw [List.append_cons, List.flatten_append] at hlines
    exact followedBy_left hlines
  have hopen := (blocks_append hread).2
  rw [List.flatten_singleton] at hopen
  have hlength : read.flatten.length + chunk.length ≤ maxStreamBytes := by
    have := hlimits.stream
    rw [List.flatten_append, List.flatten_cons, List.length_append, List.length_append] at this
    omega
  have hblocks : ∀ block ∈ readBlocks read chunk, byteLength block ≤ maxEventBytes := by
    intro block hblock
    refine hlimits.events block ?_
    rw [eventBlocks_append hlines, eventBlocks_step hlines]
    exact List.mem_append_right _ (List.mem_append_left _ hblock)
  have hbytes : (read ++ [chunk]).flatten.length = read.flatten.length + chunk.length := by
    rw [List.flatten_append, List.flatten_singleton, List.length_append]
  simp only [readSse]
  rw [if_neg (Nat.not_lt.mpr hlength), readSseBlocks_eq hblocks, ← hopen, hbytes,
    congrArg Prod.fst (decoder_append read chunk)]

/-- **No read leaves too much**: the chunks still to come give what the reference gives for the
    rest. -/
theorem readSse_eq {maxEventBytes maxStreamBytes : Nat} (read rest : List Bytes)
    (hlines : LfOrCrlf (read ++ rest).flatten)
    (hlimits : WithinLimits maxEventBytes maxStreamBytes (read ++ rest).flatten)
    (hundecided : Undecided read)
    (hfits : ∀ before after, rest = before ++ after → Undecided (read ++ before) →
      byteLength (openBlock (read ++ before)) ≤ maxEventBytes) :
    readSse maxEventBytes maxStreamBytes (TextDecoder.new.decode read.flatten).1 (openBlock read)
        read.flatten.length rest =
      afterBlocks
        (readEvents
          (eventBlocks (openBlock read ++
            streamText (TextDecoder.new.decode read.flatten).1 rest.flatten))) ([], none) := by
  induction rest generalizing read with
  | nil =>
    have hevents := hlimits.events
    rw [eventBlocks_append hlines] at hevents
    have hfinish : streamText (TextDecoder.new.decode read.flatten).1 ([] : List Bytes).flatten =
        (TextDecoder.new.decode read.flatten).1.finish := by
      rw [List.flatten_nil]
      rfl
    rw [hfinish] at hevents ⊢
    have hblocks : ∀ block ∈ eventBlocks
        (openBlock read ++ (TextDecoder.new.decode read.flatten).1.finish),
          byteLength block ≤ maxEventBytes :=
      fun block hblock => hevents block (List.mem_append_right _ hblock)
    unfold eventBlocks at hblocks ⊢
    simp only [readSse]
    rw [readSseBlocks_eq fun block hblock => hblocks block (List.mem_append_left _ hblock),
      readLast_eq (hblocks _ (List.mem_append_right _ (List.mem_singleton_self _))),
      afterBlocks_append]
  | cons chunk rest ih =>
    rw [readSse_cons hlines hlimits, eventBlocks_step hlines, afterBlocks_append]
    by_cases hpending : (readEvents (readBlocks read chunk)).2 = .pending
    · have hnext := (undecided_step hlines hundecided).mpr hpending
      rw [if_neg (Nat.not_lt.mpr (hfits [chunk] rest rfl hnext))]
      rw [List.append_cons] at hlines hlimits
      rw [ih (read ++ [chunk]) hlines hlimits hnext]
      intro before after hrest hundecided
      have hfit := hfits (chunk :: before) after (by rw [hrest]; rfl)
      rw [List.append_cons] at hfit
      exact hfit hundecided
    · exact afterBlocks_decided hpending _ _

/-- **A read that leaves too much ends the generator** with the error of the limit. -/
theorem readSse_long {maxEventBytes maxStreamBytes : Nat} (read rest : List Bytes)
    (hlines : LfOrCrlf (read ++ rest).flatten)
    (hlimits : WithinLimits maxEventBytes maxStreamBytes (read ++ rest).flatten)
    (hundecided : Undecided read) {before after : List Bytes} (hbefore : before ≠ [])
    (hrest : rest = before ++ after) (hlong : Undecided (read ++ before))
    (htoo : maxEventBytes < byteLength (openBlock (read ++ before))) :
    (readSse maxEventBytes maxStreamBytes (TextDecoder.new.decode read.flatten).1 (openBlock read)
      read.flatten.length rest).2 = some (eventExceeds maxEventBytes) := by
  induction rest generalizing read before with
  | nil => exact absurd (List.append_eq_nil_iff.mp hrest.symm).1 hbefore
  | cons chunk rest ih =>
    obtain ⟨first, before, rfl⟩ := List.exists_cons_of_ne_nil hbefore
    obtain ⟨rfl, hmore⟩ : chunk = first ∧ rest = before ++ after := List.cons.inj hrest
    rw [List.append_cons] at hlong htoo
    have hbefore' : LfOrCrlf (read ++ [chunk] ++ before).flatten := by
      rw [List.append_cons, hmore, ← List.append_assoc, List.flatten_append] at hlines
      exact followedBy_left hlines
    -- the blocks of this read do not end the generator, for those of later ones do not
    have hnext : Undecided (read ++ [chunk]) := by
      by_contra hdecided
      unfold Undecided at hlong hdecided
      rw [(blocks_append hbefore').1, readEvents_append_decided hdecided] at hlong
      exact hdecided hlong
    have hpending := (undecided_step hlines hundecided).mp hnext
    have hafter (next : List Json × Option SseFailure) :
        (afterBlocks (readEvents (readBlocks read chunk)) next).2 = next.2 := by
      cases hread : readEvents (readBlocks read chunk) with
      | mk values ending =>
        rw [hread] at hpending
        cases hpending
        rfl
    rw [readSse_cons hlines hlimits, hafter]
    by_cases hfit : maxEventBytes < byteLength (openBlock (read ++ [chunk]))
    · rw [if_pos hfit]
    · have hne : before ≠ [] := by
        rintro rfl
        rw [List.append_nil] at htoo
        exact hfit htoo
      rw [List.append_cons] at hlines hlimits
      rw [if_neg hfit, ih (read ++ [chunk]) hlines hlimits hnext hne hmore hlong htoo]

theorem readEvents_failed {blocks : List Text} {failure : SseFailure}
    (h : (readEvents blocks).2 = .failed failure) : failure = malformedJson := by
  induction blocks with
  | nil => cases h
  | cons block rest ih =>
    unfold readEvents at h
    cases hblock : parseSseBlock block with
    | skipped =>
      rw [hblock] at h
      exact ih h
    | done =>
      rw [hblock] at h
      cases h
    | malformed =>
      rw [hblock] at h
      cases h
      rfl
    | value value =>
      rw [hblock] at h
      exact ih h

omit [JsonText] in
theorem malformedJson_ne (maxBytes : Nat) : malformedJson ≠ eventExceeds maxBytes := by
  intro h
  have htext := SseFailure.providerResponseError.inj h
  have hhead := congrArg (fun text => text.take 10) htext
  rw [List.append_assoc, List.take_append_of_le_length (by decide)] at hhead
  exact absurd hhead (by decide)

/-- The reference does not know the limits. -/
theorem referenceSse_ne (bytes : Bytes) (maxBytes : Nat) :
    (referenceSse bytes).2 ≠ some (eventExceeds maxBytes) := by
  unfold referenceSse
  cases hread : readEvents (eventBlocks (streamText .new bytes)) with
  | mk values ending =>
    cases ending with
    | pending => exact fun h => (nomatch h)
    | done => exact fun h => (nomatch h)
    | failed failure =>
      have hfailure := readEvents_failed (congrArg Prod.snd hread)
      intro h
      exact malformedJson_ne maxBytes (hfailure.symm.trans (Option.some.inj h))

/-- **The chunks do not matter where no read leaves more than an event's bytes.** -/
theorem parse_eq_reference_iff {limits : SseParseLimits} {maxEventBytes maxStreamBytes : Nat}
    (hevent : positiveLimit limits.maxEventBytes DEFAULT_SSE_EVENT_MAX_BYTES "maxEventBytes" =
      .ok maxEventBytes)
    (hstream : positiveLimit limits.maxStreamBytes DEFAULT_SSE_STREAM_MAX_BYTES "maxStreamBytes" =
      .ok maxStreamBytes)
    {chunks : List Bytes} (hlines : LfOrCrlf chunks.flatten)
    (hlimits : WithinLimits maxEventBytes maxStreamBytes chunks.flatten) :
    parseSseJson limits chunks = referenceSse chunks.flatten ↔
      ∀ before after, chunks = before ++ after → Undecided before →
        byteLength (openBlock before) ≤ maxEventBytes := by
  have hparse : parseSseJson limits chunks =
      readSse maxEventBytes maxStreamBytes TextDecoder.new [] 0 chunks := by
    unfold parseSseJson
    rw [hevent, hstream]
  have hstart : Undecided [] := rfl
  rw [hparse]
  constructor
  · intro hsame before after hchunks hundecided
    by_contra htoo
    have hbefore : before ≠ [] := by
      rintro rfl
      exact htoo (Nat.zero_le _)
    have hlong := readSse_long [] chunks hlines hlimits hstart hbefore hchunks hundecided
      (Nat.lt_of_not_le htoo)
    refine referenceSse_ne chunks.flatten maxEventBytes ?_
    rw [← hsame]
    exact hlong
  · intro hfits
    exact readSse_eq [] chunks hlines hlimits hstart hfits

end Runs

/-! ## 6. A blank line that is cut -/

instance (bytes : Bytes) : Decidable (LfOrCrlf bytes) :=
  inferInstanceAs (Decidable (FollowedBy 0x0D 0x0A bytes))

/-- A host that reads one digit. -/
@[reducible] def oneParser : JsonText :=
  ⟨fun text => if text = "1".toList then some (.num text) else none⟩

def eventLimits (maxEventBytes : ℚ) : SseParseLimits := ⟨some maxEventBytes, some 32⟩

/-- An event and its CRLF pairs, both of them cut. -/
def cutPairs : List Bytes :=
  [encode "data: 1\r".toList, encode "\n\r".toList, encode "\ndata: [DONE]".toList]

theorem parse_eq_reference_cut :
    let _ : JsonText := oneParser
    parseSseJson (eventLimits 16) cutPairs = referenceSse cutPairs.flatten := by
  intro _
  have hlimits : WithinLimits 16 32 cutPairs.flatten := by
    refine ⟨by decide, ?_⟩
    have hall : (eventBlocks (streamText .new cutPairs.flatten)).all
        (fun block => decide (byteLength block ≤ 16)) = true := by decide
    exact fun block hblock => of_decide_eq_true (List.all_eq_true.mp hall block hblock)
  have hbefore : (cutPairs.inits.all fun before => decide (byteLength (openBlock before) ≤ 16)) =
      true := by decide
  have hevent : positiveLimit (eventLimits 16).maxEventBytes DEFAULT_SSE_EVENT_MAX_BYTES
      "maxEventBytes" = .ok 16 := by decide
  have hstream : positiveLimit (eventLimits 16).maxStreamBytes DEFAULT_SSE_STREAM_MAX_BYTES
      "maxStreamBytes" = .ok 32 := by decide
  refine (parse_eq_reference_iff hevent hstream (by decide) hlimits).mpr
    fun before after hchunks _ => ?_
  have hmem : before ∈ cutPairs.inits :=
    (List.mem_inits before cutPairs).mpr ⟨after, hchunks.symm⟩
  exact of_decide_eq_true (List.all_eq_true.mp hbefore before hmem)

/-- An event of seven bytes, cut between the two line ends after it. -/
def cutBlankLine : List Bytes := [encode "data: 1\n".toList, encode "\n".toList]

/-- **An event of exactly the limit is refused** where its blank line is cut. -/
theorem cut_blank_line :
    ¬ ∀ [JsonText] (limits : SseParseLimits) (maxEventBytes maxStreamBytes : Nat),
      positiveLimit limits.maxEventBytes DEFAULT_SSE_EVENT_MAX_BYTES "maxEventBytes" =
        .ok maxEventBytes →
      positiveLimit limits.maxStreamBytes DEFAULT_SSE_STREAM_MAX_BYTES "maxStreamBytes" =
        .ok maxStreamBytes →
      ∀ chunks : List Bytes, LfOrCrlf chunks.flatten →
        WithinLimits maxEventBytes maxStreamBytes chunks.flatten →
          parseSseJson limits chunks = referenceSse chunks.flatten := by
  intro h
  let _ : JsonText := oneParser
  have hlimits : WithinLimits 7 32 cutBlankLine.flatten := by
    refine ⟨by decide, ?_⟩
    have hall : (eventBlocks (streamText .new cutBlankLine.flatten)).all
        (fun block => decide (byteLength block ≤ 7)) = true := by decide
    exact fun block hblock => of_decide_eq_true (List.all_eq_true.mp hall block hblock)
  have hsame := h (eventLimits 7) 7 32 (by decide) (by decide) cutBlankLine (by decide) hlimits
  have htoo : 7 < byteLength (openBlock ([] ++ [encode "data: 1\n".toList])) := by decide
  have hundecided : Undecided ([] ++ [encode "data: 1\n".toList]) := rfl
  have hlong : (readSse 7 32 TextDecoder.new [] 0 cutBlankLine).2 = some (eventExceeds 7) :=
    readSse_long [] cutBlankLine (by decide) hlimits rfl (List.cons_ne_nil _ _) rfl hundecided htoo
  refine referenceSse_ne cutBlankLine.flatten 7 ?_
  rw [← hsame]
  exact hlong

end OpenVac.Providers
