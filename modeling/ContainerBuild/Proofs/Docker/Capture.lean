import ContainerBuild.Docker.Process
import ContainerBuild.Proofs.Text.Lines
import ContainerBuild.Proofs.Text.Utf8
import Mathlib.Logic.Relation

/-!
# What is captured of a command

A stream that is empty or ends with a line feed (`Whole`) consists of lines that each
end with a line feed (`exists_lines`).

* No character reaches over a line feed. So it does not matter whether lines are
  decoded one by one or together, and the text captured from such a stream is the
  whole of it, decoded, with plain line endings (`captured_lines`).
* Lines of two pipes that alternate by turns keep the order within each pipe
  (`fromPipe_interleave`), and every such order comes about by some turns
  (`interleave_turns`).
* The loop that reads the pipes has a buffer and an end of its own for each
  (`Source`, `Capture.Step`). What a source has given and what it still holds are
  together the lines of its stream (`Source.Holds`); so when both pipes have ended,
  the lines are taken in the order of some turns, and every such order is possible
  (`Capture.exists_turns`, `Capture.exists_run`).

So whatever the order is in which lines become ready, the text of each pipe is the same
(`run_captures`).
-/

namespace ContainerBuild.Docker

open Text (linesFrom closeLine)

/-! ### Whole streams -/

/-- A stream is empty or ends with a line feed. -/
def Whole (bytes : List UInt8) : Prop :=
  bytes = [] ∨ bytes.getLast? = some feedByte

instance (bytes : List UInt8) : Decidable (Whole bytes) :=
  inferInstanceAs (Decidable (_ ∨ _))

/-- A stream without the carriage returns that stand directly before a line feed, one before
    each. -/
def plain : List UInt8 → List UInt8
  | [] => []
  | b :: rest =>
    if b = returnByte ∧ rest.head? = some feedByte then plain rest else b :: plain rest

/-- The text of bytes, whatever they are. -/
def lossy (bytes : List UInt8) : String :=
  String.ofList (Text.Utf8.decodeLossy bytes)

/-- The text of a stream as a whole, with plain line endings. -/
def plainText (bytes : List UInt8) : String :=
  lossy (plain bytes)

/-- The lines of a whole stream, which are what stands before its line feeds. -/
def plainLines (bytes : List UInt8) : List String :=
  ((plain bytes).splitOn feedByte).dropLast.map lossy

/-- Lines with their line feeds. -/
def joined (lines : List (List UInt8)) : List UInt8 :=
  lines.flatMap (· ++ [feedByte])

/-- A line without a carriage return at its end. -/
def dropReturn (line : List UInt8) : List UInt8 :=
  closeLine returnByte line.reverse

variable {line bytes rest : List UInt8} {lines : List (List UInt8)}

theorem joined_cons : joined (line :: lines) = line ++ feedByte :: joined lines := by
  rw [joined, List.flatMap_cons, List.append_assoc]
  rfl

/-- Every stream consists of lines that end with a line feed, and of something without one. -/
theorem exists_lines_append (bytes : List UInt8) : ∃ lines rest,
    bytes = joined lines ++ rest ∧ (∀ line ∈ lines, feedByte ∉ line) ∧ feedByte ∉ rest := by
  -- A byte that is put in front goes to the first line, if there is one.
  induction bytes with
  | nil => exact ⟨[], [], rfl, fun _ h => absurd h List.not_mem_nil, List.not_mem_nil⟩
  | cons b bytes ih =>
    obtain ⟨lines, rest, rfl, hlines, hrest⟩ := ih
    by_cases hb : b = feedByte
    · refine ⟨[] :: lines, rest, ?_, List.forall_mem_cons.2 ⟨List.not_mem_nil, hlines⟩, hrest⟩
      rw [joined_cons, hb]
      rfl
    have hcons : ∀ {l}, feedByte ∉ l → feedByte ∉ b :: l := fun hl hmem =>
      (List.mem_cons.1 hmem).elim (fun heq => hb heq.symm) hl
    cases lines with
    | nil => exact ⟨[], b :: rest, rfl, hlines, hcons hrest⟩
    | cons line lines =>
      obtain ⟨hline, hlines⟩ := List.forall_mem_cons.1 hlines
      refine ⟨(b :: line) :: lines, rest, ?_, List.forall_mem_cons.2 ⟨hcons hline, hlines⟩, hrest⟩
      rw [joined_cons, joined_cons]
      rfl

/-- A whole stream consists of lines that end with a line feed. -/
theorem exists_lines (h : Whole bytes) :
    ∃ lines, bytes = joined lines ∧ ∀ line ∈ lines, feedByte ∉ line := by
  obtain ⟨lines, rest, rfl, hlines, hrest⟩ := exists_lines_append bytes
  rcases List.eq_nil_or_concat rest with rfl | ⟨rest, b, rfl⟩
  · exact ⟨lines, List.append_nil _, hlines⟩
  rw [List.concat_eq_append] at h hrest
  rcases h with h | h
  · simp at h
  · rw [← List.append_assoc, List.getLast?_concat] at h
    cases h
    exact absurd (List.mem_append_right _ List.mem_cons_self) hrest

theorem whole_joined (lines : List (List UInt8)) : Whole (joined lines) := by
  rcases List.eq_nil_or_concat lines with rfl | ⟨lines, line, rfl⟩
  · exact .inl rfl
  · refine .inr ?_
    rw [joined, List.concat_eq_append, List.flatMap_append, List.flatMap_singleton,
      ← List.append_assoc, List.getLast?_concat]

/-! ### Carriage returns -/

theorem dropReturn_concat (line : List UInt8) (b : UInt8) :
    dropReturn (line ++ [b]) = if b = returnByte then line else line ++ [b] := by
  rw [dropReturn, List.reverse_concat, closeLine, List.reverse_reverse, List.reverse_cons,
    List.reverse_reverse]

theorem feed_not_mem_dropReturn (h : feedByte ∉ line) : feedByte ∉ dropReturn line := by
  rcases List.eq_nil_or_concat line with rfl | ⟨line, b, rfl⟩
  · exact h
  rw [List.concat_eq_append] at h ⊢
  rw [dropReturn_concat]
  split_ifs
  · exact fun hmem => h (List.mem_append_left _ hmem)
  · exact h

/-- Nothing is dropped before the last byte of a line. -/
theorem plain_append (h : feedByte ∉ line) {b : UInt8} (hb : b ≠ feedByte) (rest : List UInt8) :
    plain (line ++ b :: rest) = line ++ plain (b :: rest) := by
  induction line with
  | nil => rfl
  | cons a line ih =>
    obtain ⟨_, hline⟩ := not_or.1 (mt List.mem_cons.2 h)
    have hhead : (line ++ b :: rest).head? ≠ some feedByte := by
      cases line with
      | nil => exact fun hb' => hb (Option.some.inj hb')
      | cons c line => exact fun hc => hline (Option.some.inj hc ▸ List.mem_cons_self)
    rw [List.cons_append, plain, if_neg fun hdrop => hhead hdrop.2, ih hline, List.cons_append]

theorem plain_feed (rest : List UInt8) : plain (feedByte :: rest) = feedByte :: plain rest := by
  rw [plain, if_neg fun h => absurd h.1 (by decide)]

/-- Of each line, a carriage return at the end is dropped. -/
theorem plain_line (h : feedByte ∉ line) (rest : List UInt8) :
    plain (line ++ feedByte :: rest) = dropReturn line ++ feedByte :: plain rest := by
  rcases List.eq_nil_or_concat line with rfl | ⟨line, b, rfl⟩
  · exact plain_feed rest
  rw [List.concat_eq_append] at h ⊢
  obtain ⟨hline, hb⟩ := not_or.1 (mt List.mem_append.2 h)
  have hb : b ≠ feedByte := fun heq => hb (List.mem_singleton.2 heq.symm)
  rw [List.append_assoc, List.singleton_append, plain_append hline hb, plain, plain_feed,
    dropReturn_concat]
  by_cases hreturn : b = returnByte
  · rw [if_pos ⟨hreturn, rfl⟩, if_pos hreturn]
  · rw [if_neg fun h => hreturn h.1, if_neg hreturn, List.append_assoc]
    rfl

theorem plain_joined (h : ∀ line ∈ lines, feedByte ∉ line) :
    plain (joined lines) = joined (lines.map dropReturn) := by
  induction lines with
  | nil => rfl
  | cons line lines ih =>
    obtain ⟨hline, hlines⟩ := List.forall_mem_cons.1 h
    rw [joined_cons, plain_line hline, ih hlines, List.map_cons, joined_cons]

theorem splitOn_joined (h : ∀ line ∈ lines, feedByte ∉ line) :
    (joined lines).splitOn feedByte = lines ++ [[]] := by
  induction lines with
  | nil => rfl
  | cons line lines ih =>
    obtain ⟨hline, hlines⟩ := List.forall_mem_cons.1 h
    rw [joined_cons, List.splitOn_append_cons_self, ih hlines, List.splitOn_eq_singleton hline]
    rfl

theorem plainLines_joined (h : ∀ line ∈ lines, feedByte ∉ line) :
    plainLines (joined lines) = lines.map fun line => lossy (dropReturn line) := by
  have hlines : ∀ line ∈ lines.map dropReturn, feedByte ∉ line := by
    intro line hline
    obtain ⟨line, hmem, rfl⟩ := List.mem_map.1 hline
    exact feed_not_mem_dropReturn (h line hmem)
  rw [plainLines, plain_joined h, splitOn_joined hlines, List.dropLast_concat, List.map_map]
  rfl

/-! ### Decoding line by line -/

/-- What stands before a line feed is decoded as if nothing followed. -/
theorem lossy_feed (line rest : List UInt8) :
    lossy (line ++ feedByte :: rest) = lossy line ++ "\n" ++ lossy rest := by
  have hfeed : Char.ofNat feedByte.toNat = '\n' := by decide
  rw [lossy, Text.Utf8.decodeLossy_append_ascii (by decide), hfeed]
  refine String.toList_injective ?_
  simp [lossy]

theorem lossy_joined (lines : List (List UInt8)) :
    lossy (joined lines) = String.join (lines.map fun line => lossy line ++ "\n") := by
  induction lines with
  | nil => rfl
  | cons line lines ih => rw [joined_cons, lossy_feed, ih, List.map_cons, String.join_cons]

theorem streamLines_joined (h : ∀ line ∈ lines, feedByte ∉ line) :
    streamLines (joined lines) = lines.map fun line => lossy (dropReturn line) := by
  induction lines with
  | nil => rfl
  | cons line lines ih =>
    obtain ⟨hline, hlines⟩ := List.forall_mem_cons.1 h
    rw [streamLines, joined_cons, Text.linesFrom_append hline, List.append_nil, List.map_cons,
      List.map_cons, ← ih hlines]
    rfl

/-- The lines of a whole stream are those of its text with plain line endings. -/
theorem streamLines_eq_plainLines (h : Whole bytes) : streamLines bytes = plainLines bytes := by
  obtain ⟨lines, rfl, hlines⟩ := exists_lines h
  rw [streamLines_joined hlines, plainLines_joined hlines]

/-- Put together again, they are that text. -/
theorem join_streamLines (h : Whole bytes) :
    String.join ((streamLines bytes).map (· ++ "\n")) = plainText bytes := by
  obtain ⟨lines, rfl, hlines⟩ := exists_lines h
  rw [streamLines_joined hlines, plainText, plain_joined hlines, lossy_joined, List.map_map,
    List.map_map]
  rfl

/-! ### Turns -/

/-- The lines that were read from a pipe, in order. -/
def fromPipe (pipe : Pipe) (seen : List PipeLine) : List String :=
  (seen.filter (·.pipe = pipe)).map (·.text)

/-- What a command writes to a pipe. -/
def Reply.stream (r : Reply) : Pipe → List UInt8
  | .out => r.stdout
  | .err => r.stderr

variable {seen : List PipeLine} {pipe : Pipe}

theorem captured_eq (pipe : Pipe) (seen : List PipeLine) :
    captured pipe seen = String.join ((fromPipe pipe seen).map (· ++ "\n")) := by
  rw [fromPipe, List.map_map]
  rfl

theorem fromPipe_append (pipe : Pipe) (seen seen' : List PipeLine) :
    fromPipe pipe (seen ++ seen') = fromPipe pipe seen ++ fromPipe pipe seen' := by
  rw [fromPipe, List.filter_append, List.map_append]
  rfl

theorem fromPipe_same (pipe : Pipe) (texts : List String) :
    fromPipe pipe (texts.map (⟨pipe, ·⟩)) = texts := by
  rw [fromPipe, List.filter_map, List.map_map, List.filter_eq_self.2]
  · exact List.map_id texts
  · exact fun _ _ => decide_eq_true rfl

theorem fromPipe_other {pipe pipe' : Pipe} (h : pipe' ≠ pipe) (texts : List String) :
    fromPipe pipe (texts.map (⟨pipe', ·⟩)) = [] := by
  rw [fromPipe, List.filter_map, List.filter_eq_nil_iff.2]
  · rfl
  · exact fun _ _ hp => h (of_decide_eq_true hp)

theorem fromPipe_cons_self (pipe : Pipe) (text : String) (seen : List PipeLine) :
    fromPipe pipe (⟨pipe, text⟩ :: seen) = text :: fromPipe pipe seen :=
  (fromPipe_append pipe [⟨pipe, text⟩] seen).trans (congrArg (· ++ _) (fromPipe_same pipe [text]))

theorem fromPipe_cons_of_ne {pipe pipe' : Pipe} (h : pipe' ≠ pipe) (text : String)
    (seen : List PipeLine) : fromPipe pipe (⟨pipe', text⟩ :: seen) = fromPipe pipe seen :=
  (fromPipe_append pipe [⟨pipe', text⟩] seen).trans (congrArg (· ++ _) (fromPipe_other h [text]))

/-- Turns leave the lines of each pipe in their order. -/
theorem fromPipe_interleave (turns : List Pipe) (out err : List String) :
    fromPipe .out (interleave turns out err) = out ∧
      fromPipe .err (interleave turns out err) = err := by
  fun_induction interleave turns out err with
  | case1 out err =>
    rw [fromPipe_append, fromPipe_append, fromPipe_same, fromPipe_same, fromPipe_other (by decide),
      fromPipe_other (by decide)]
    exact ⟨rfl, List.append_nil err⟩
  | case2 turns line out err ih => exact ⟨congrArg (line :: ·) ih.1, ih.2⟩
  | case3 turns err ih => exact ih
  | case4 turns out line err ih => exact ⟨ih.1, congrArg (line :: ·) ih.2⟩
  | case5 turns out ih => exact ih

/-- Lines in any order come about by some turns, those of the pipes that they are read from. -/
theorem interleave_turns (seen : List PipeLine) :
    interleave (seen.map (·.pipe)) (fromPipe .out seen) (fromPipe .err seen) = seen := by
  induction seen with
  | nil => rfl
  | cons line seen ih =>
    obtain ⟨pipe, text⟩ := line
    cases pipe with
    | out => exact congrArg (⟨.out, text⟩ :: ·) ih
    | err => exact congrArg (⟨.err, text⟩ :: ·) ih

theorem fromPipe_lines (r : Reply) (pipe : Pipe) :
    fromPipe pipe r.lines = streamLines (r.stream pipe) := by
  have h := fromPipe_interleave r.turns (streamLines r.stdout) (streamLines r.stderr)
  cases pipe with
  | out => exact h.1
  | err => exact h.2

/-- The text captured of a whole stream is the whole of it. -/
theorem captured_lines {r : Reply} (h : Whole (r.stream pipe)) :
    captured pipe r.lines = plainText (r.stream pipe) := by
  rw [captured_eq, fromPipe_lines, join_streamLines h]

/-! ### Reading the pipes -/

/-- One of the pipes while it is read. -/
structure Source where
  /-- What has not been read yet. -/
  rest : List UInt8
  /-- What has been read of the next line. -/
  part : List UInt8 := []
  ended : Bool := false
  text : String := ""
  deriving Repr, DecidableEq

/-- The line in a buffer, without a line break at its end. -/
def takeLine (buffer : List UInt8) : String :=
  match buffer.reverse with
  | [] => ""
  | b :: current => if b = feedByte then lossy (closeLine returnByte current) else lossy buffer

/-- What can happen to a source that has not ended, with the lines that it gives. -/
inductive Source.Step : Source → List String → Source → Prop
  /-- The other source gets ahead of it, when only a part of a line has been read. -/
  | wait {more rest part : List UInt8} {text : String} : feedByte ∉ more →
    Step ⟨more ++ rest, part, false, text⟩ [] ⟨rest, part ++ more, false, text⟩
  | line {more rest part : List UInt8} {text line : String} : feedByte ∉ more →
    takeLine (part ++ more ++ [feedByte]) = line →
    Step ⟨more ++ feedByte :: rest, part, false, text⟩ [line]
      ⟨rest, [], false, text ++ line ++ "\n"⟩
  /-- The last line need not have a line feed. -/
  | last {more part : List UInt8} {text line : String} : feedByte ∉ more → more ≠ [] →
    takeLine (part ++ more) = line →
    Step ⟨more, part, false, text⟩ [line] ⟨[], [], false, text ++ line ++ "\n"⟩
  /-- Nothing is left to be read. -/
  | finish {part : List UInt8} {text : String} :
    Step ⟨[], part, false, text⟩ [] ⟨[], part, true, text⟩

/-- How far two pipes have been read. -/
structure Capture where
  source : Pipe → Source
  /-- The lines that have been taken notice of. -/
  seen : List PipeLine

namespace Capture

/-- Nothing has been read. -/
def start (stream : Pipe → List UInt8) : Capture where
  source pipe := { rest := stream pipe }
  seen := []

/-- A source has become another one and has given some lines. -/
def after (st : Capture) (pipe : Pipe) (lines : List String) (src : Source) : Capture where
  source := Function.update st.source pipe src
  seen := st.seen ++ lines.map (⟨pipe, ·⟩)

/-- A step of one of the sources. -/
inductive Step (st : Capture) : Capture → Prop
  | of {pipe : Pipe} {lines : List String} {src : Source} : (st.source pipe).Step lines src →
    Step st (st.after pipe lines src)

/-- The reading goes on until both sources have ended. -/
def Ended (st : Capture) : Prop :=
  ∀ pipe, (st.source pipe).ended = true

end Capture

/-- What is known of a source that has given some lines of a stream. -/
structure Source.Holds (bytes : List UInt8) (src : Source) (texts : List String) : Prop where
  lines_eq : streamLines bytes =
    texts ++ (linesFrom feedByte returnByte src.part.reverse src.rest).map lossy
  text_eq : src.text = String.join (texts.map (· ++ "\n"))
  whole : Whole (src.part ++ src.rest)
  feed_not_mem : feedByte ∉ src.part
  ended : src.ended = true → src.part = [] ∧ src.rest = []

/-- The text grows by the lines that are taken. -/
theorem join_concat (texts : List String) (line : String) :
    String.join ((texts ++ [line]).map (· ++ "\n")) =
      String.join (texts.map (· ++ "\n")) ++ line ++ "\n" := by
  rw [List.map_append, String.join_append, List.map_singleton, String.join_cons, String.join_nil,
    String.append_empty, String.append_assoc]

theorem takeLine_feed (line : List UInt8) :
    takeLine (line ++ [feedByte]) = lossy (dropReturn line) := by
  rw [takeLine, List.reverse_concat]
  exact if_pos rfl

/-- In a whole stream, something follows a part of a line. -/
theorem Whole.eq_nil (h : Whole bytes) (hfeed : feedByte ∉ bytes) : bytes = [] :=
  h.resolve_right fun hlast => hfeed (List.mem_of_getLast? hlast)

theorem Whole.of_append (h : Whole (line ++ feedByte :: rest)) : Whole rest := by
  rcases h with h | h
  · simp at h
  · cases rest with
    | nil => exact .inl rfl
    | cons b rest =>
      refine .inr ?_
      rwa [List.getLast?_append_of_ne_nil _ (List.cons_ne_nil _ _), List.getLast?_cons_cons] at h

namespace Source

variable {src src' : Source} {texts taken : List String}

theorem holds_start (h : Whole bytes) : Holds bytes { rest := bytes } [] where
  lines_eq := rfl
  text_eq := rfl
  whole := h
  feed_not_mem := List.not_mem_nil
  ended h := nomatch h

/-- A step keeps what is known of a source. -/
theorem Holds.step (h : Holds bytes src texts) (hstep : Step src taken src') :
    Holds bytes src' (texts ++ taken) := by
  obtain ⟨hlines, htext, hwhole, hpart, _⟩ := h
  cases hstep with dsimp only at hlines htext hwhole hpart
  | @wait more rest part text hmore =>
    rw [List.append_nil]
    refine ⟨?_, htext, ?_, fun hmem => (List.mem_append.1 hmem).elim hpart hmore, nofun⟩
    · rw [hlines, Text.linesFrom_notMem hmore, List.reverse_append]
    · rwa [List.append_assoc]
  | @line more rest part text line hmore hline =>
    rw [takeLine_feed] at hline
    refine ⟨?_, ?_, ?_, List.not_mem_nil, nofun⟩
    · rw [hlines, Text.linesFrom_append hmore, ← List.reverse_append, List.map_cons,
        List.append_assoc, ← hline]
      rfl
    · rw [join_concat, ← htext]
    · rw [← List.append_assoc] at hwhole
      exact hwhole.of_append
  | @last more part text line hmore hne hline =>
    -- A whole stream has no line without a line feed.
    have hnil := hwhole.eq_nil fun hmem => (List.mem_append.1 hmem).elim hpart hmore
    exact absurd (List.append_eq_nil_iff.1 hnil).2 hne
  | @finish part text =>
    -- Nothing is lost with the buffer, as it is empty.
    rw [List.append_nil]
    refine ⟨hlines, htext, hwhole, hpart, fun _ => ⟨?_, rfl⟩⟩
    rw [List.append_nil] at hwhole
    exact hwhole.eq_nil hpart

end Source

namespace Capture

open Relation (ReflTransGen)

variable {stream : Pipe → List UInt8} {st : Capture} {src : Source} {lines : List String}

theorem source_after_self : (st.after pipe lines src).source pipe = src :=
  Function.update_self ..

theorem source_after_of_ne {pipe' : Pipe} (h : pipe ≠ pipe') :
    (st.after pipe lines src).source pipe' = st.source pipe' :=
  Function.update_of_ne h.symm ..

theorem fromPipe_after_self :
    fromPipe pipe (st.after pipe lines src).seen = fromPipe pipe st.seen ++ lines := by
  rw [after, fromPipe_append, fromPipe_same]

theorem fromPipe_after_of_ne {pipe' : Pipe} (h : pipe ≠ pipe') :
    fromPipe pipe' (st.after pipe lines src).seen = fromPipe pipe' st.seen := by
  rw [after, fromPipe_append, fromPipe_other h, List.append_nil]

/-- What is known of the sources holds all the time. -/
theorem holds_of_run (hwhole : ∀ pipe, Whole (stream pipe))
    (h : ReflTransGen Step (start stream) st) (pipe : Pipe) :
    (st.source pipe).Holds (stream pipe) (fromPipe pipe st.seen) := by
  induction h with
  | refl => exact Source.holds_start (hwhole pipe)
  | tail _ hstep ih =>
    cases hstep with
    | @of pipe' lines src hsrc =>
      by_cases hpipe : pipe' = pipe
      · subst hpipe
        rw [source_after_self, fromPipe_after_self]
        exact ih.step hsrc
      · rw [source_after_of_ne hpipe, fromPipe_after_of_ne hpipe]
        exact ih

/-- When both sources have ended, each has given all lines of its stream. -/
theorem fromPipe_of_run (hwhole : ∀ pipe, Whole (stream pipe))
    (h : ReflTransGen Step (start stream) st) (hended : st.Ended) (pipe : Pipe) :
    fromPipe pipe st.seen = streamLines (stream pipe) ∧
      (st.source pipe).text = plainText (stream pipe) := by
  have hsource := holds_of_run hwhole h pipe
  obtain ⟨hpart, hrest⟩ := hsource.ended (hended pipe)
  have hlines := hsource.lines_eq
  rw [hpart, hrest, List.reverse_nil, linesFrom, if_pos List.isEmpty_nil, List.map_nil,
    List.append_nil] at hlines
  exact ⟨hlines.symm, by rw [hsource.text_eq, ← hlines, join_streamLines (hwhole pipe)]⟩

/-- The first line of a whole stream is ready. -/
theorem exists_line (h : Whole bytes) {text : String} {texts : List String}
    (hlines : streamLines bytes = text :: texts) :
    ∃ line rest, bytes = line ++ feedByte :: rest ∧ feedByte ∉ line ∧
      takeLine (line ++ [feedByte]) = text ∧ Whole rest ∧ streamLines rest = texts := by
  obtain ⟨lines, rfl, hfeed⟩ := exists_lines h
  rw [streamLines_joined hfeed] at hlines
  cases lines with
  | nil => cases hlines
  | cons line lines =>
    obtain ⟨hline, hrest⟩ := List.cons.inj hlines
    obtain ⟨hfeed, hfeeds⟩ := List.forall_mem_cons.1 hfeed
    exact ⟨line, joined lines, joined_cons, hfeed, (takeLine_feed line).trans hline,
      whole_joined lines, (streamLines_joined hfeeds).trans hrest⟩

/-- Nothing is in the buffers, and the sources still have to give the lines of some streams. -/
def Ready (stream : Pipe → List UInt8) (st : Capture) : Prop :=
  ∀ pipe, ∃ text, st.source pipe = ⟨stream pipe, [], false, text⟩

theorem Ready.after (h : st.Ready stream) (lines : List String) (rest : List UInt8) (text : String) :
    (st.after pipe lines ⟨rest, [], false, text⟩).Ready (Function.update stream pipe rest) := by
  intro pipe'
  by_cases hpipe : pipe = pipe'
  · subst hpipe
    exact ⟨text, by rw [source_after_self, Function.update_self]⟩
  · obtain ⟨text', hsource⟩ := h pipe'
    exact ⟨text', by rw [source_after_of_ne hpipe, hsource, Function.update_of_ne (Ne.symm hpipe)]⟩

/-- Sources without lines end. -/
theorem exists_run_ended (h : st.Ready fun _ => []) :
    ∃ st', ReflTransGen Step st st' ∧ st'.Ended ∧ st'.seen = st.seen := by
  obtain ⟨out, hout⟩ := h .out
  obtain ⟨err, herr⟩ := h .err
  have hfinish : ∀ {src : Source} {text}, src = ⟨[], [], false, text⟩ →
      src.Step [] ⟨[], [], true, text⟩ := fun hsrc => hsrc ▸ .finish
  have hsecond : (st.after .out [] ⟨[], [], true, out⟩).source .err = ⟨[], [], false, err⟩ :=
    (source_after_of_ne (by decide)).trans herr
  refine ⟨_, .tail (.single (.of (hfinish hout))) (.of (hfinish hsecond)), fun pipe => ?_, ?_⟩
  · cases pipe <;> rfl
  · exact (List.append_nil _).trans (List.append_nil _)

/-- The lines of whole streams can be taken in any order. -/
theorem exists_run (hwhole : ∀ pipe, Whole (stream pipe))
    (hseen : ∀ pipe, fromPipe pipe seen = streamLines (stream pipe)) (hst : st.Ready stream) :
    ∃ st', ReflTransGen Step st st' ∧ st'.Ended ∧ st'.seen = st.seen ++ seen := by
  induction seen generalizing stream st with
  | nil =>
    -- A whole stream without lines is empty.
    have hnil : stream = fun _ => [] := by
      funext pipe
      obtain ⟨lines, hlines, hfeed⟩ := exists_lines (hwhole pipe)
      have hempty := hseen pipe
      rw [hlines, streamLines_joined hfeed] at hempty
      rw [hlines, List.map_eq_nil_iff.1 hempty.symm]
      rfl
    rw [List.append_nil]
    exact exists_run_ended (hnil ▸ hst)
  | cons line seen ih =>
    obtain ⟨pipe, t⟩ := line
    obtain ⟨text, hsource⟩ := hst pipe
    have hlines := (hseen pipe).symm
    rw [fromPipe_cons_self] at hlines
    obtain ⟨line, rest, hbytes, hfeed, htake, hrest, hlines⟩ := exists_line (hwhole pipe) hlines
    have hstep : (st.source pipe).Step [t] ⟨rest, [], false, text ++ t ++ "\n"⟩ := by
      rw [hsource, hbytes]
      exact .line hfeed htake
    -- What the other source still has to give stays as it is.
    have hwhole' : ∀ p, Whole (Function.update stream pipe rest p) :=
      (Function.forall_update_iff stream fun _ bytes => Whole bytes).2 ⟨hrest, fun p _ => hwhole p⟩
    have hseen' : ∀ p, fromPipe p seen = streamLines (Function.update stream pipe rest p) := by
      refine (Function.forall_update_iff stream fun p bytes => _ = streamLines bytes).2
        ⟨hlines.symm, fun p hp => ?_⟩
      rw [← hseen p, fromPipe_cons_of_ne (Ne.symm hp)]
    obtain ⟨st', hrun, hended, hst'⟩ := ih hwhole' hseen' (hst.after [t] rest _)
    refine ⟨st', .head (.of hstep) hrun, hended, ?_⟩
    rw [hst', after, List.append_assoc]
    rfl

/-- The lines are taken by turns. -/
theorem exists_turns {r : Reply} (hwhole : ∀ pipe, Whole (r.stream pipe))
    (h : ReflTransGen Step (start r.stream) st) (hended : st.Ended) :
    ∃ turns, st.seen = ({ r with turns } : Reply).lines := by
  have hlines := fun pipe => (fromPipe_of_run hwhole h hended pipe).1
  refine ⟨st.seen.map (·.pipe), (interleave_turns st.seen).symm.trans ?_⟩
  rw [hlines, hlines]
  rfl

end Capture

/-- If what a command writes is whole, the text captured of each pipe is all that was written to
    it, decoded at once, with plain line endings, in whatever order the lines became ready. The
    host takes notice of every line once, and of the lines of each pipe in their order. The runs of
    the loop that reads the pipes give the same texts, and their lines come by turns, of which all
    are possible. -/
theorem run_captures {σ : Type} (h : Host σ) {c : Command} {s s' : σ} {reply : Reply}
    (hlive : h.cancelled s = false) (hstart : c.isStartable = true)
    (hlaunch : h.launch c s = (.ran reply, s')) (hwhole : ∀ pipe, Whole (reply.stream pipe)) :
    (∀ echoed, (h.run echoed c s).1 = match reply.ending with
      | .exited code => .ok ⟨some code, plainText reply.stdout, plainText reply.stderr⟩
      | .killed => .ok ⟨none, plainText reply.stdout, plainText reply.stderr⟩
      | .blocked => .error .cancelled) ∧
    (h.run true c s).2 = reply.lines.foldl (fun s line => h.echo line.text s) s' ∧
    (∀ pipe, fromPipe pipe reply.lines = plainLines (reply.stream pipe)) ∧
    (∀ st, Relation.ReflTransGen Capture.Step (.start reply.stream) st → st.Ended →
      (∀ pipe, (st.source pipe).text = plainText (reply.stream pipe) ∧
        fromPipe pipe st.seen = plainLines (reply.stream pipe)) ∧
      ∃ turns, st.seen = ({ reply with turns } : Reply).lines) ∧
    ∃ st, Relation.ReflTransGen Capture.Step (.start reply.stream) st ∧ st.Ended ∧
      st.seen = reply.lines := by
  have hrun : ∀ echoed, h.run echoed c s = (reply.ending.finish reply.lines,
      if echoed then reply.lines.foldl (fun s line => h.echo line.text s) s' else s') := by
    intro echoed
    rw [Host.run, hlive, hstart, hlaunch]
    rfl
  have hlines : ∀ pipe, streamLines (reply.stream pipe) = plainLines (reply.stream pipe) :=
    fun pipe => streamLines_eq_plainLines (hwhole pipe)
  refine ⟨fun echoed => ?_, by rw [hrun]; rfl, fun pipe => ?_,
    fun st hst hended => ⟨fun pipe => ?_, ?_⟩, ?_⟩
  · have hout : captured .out reply.lines = plainText reply.stdout := captured_lines (hwhole .out)
    have herr : captured .err reply.lines = plainText reply.stderr := captured_lines (hwhole .err)
    rw [hrun]
    cases reply.ending with
    | exited code => rw [Ending.finish, hout, herr]
    | killed => rw [Ending.finish, hout, herr]
    | blocked => rfl
  · rw [fromPipe_lines, hlines]
  · obtain ⟨htaken, htext⟩ := Capture.fromPipe_of_run hwhole hst hended pipe
    exact ⟨htext, htaken.trans (hlines pipe)⟩
  · exact Capture.exists_turns hwhole hst hended
  · exact Capture.exists_run hwhole (fromPipe_lines reply) fun _ => ⟨"", rfl⟩

/-- A host on which every command does the same, and which records the lines. -/
def repeating (reply : Reply) : Host (List String) where
  launch _ seen := (.ran reply, seen)
  echo line seen := seen ++ [line]
  cancelled _ := false

/-- A byte that begins no character, a character that is cut off by a line feed, and carriage
    returns. -/
def garbled : Reply where
  stdout := [0x61, 0xFF, 0x0D, 0x0A, 0x62, 0x0A]
  stderr := [0xE2, 0x82, 0x0A, 0x63, 0x0D, 0x0D, 0x0A]
  turns := [.err, .out, .err, .err]

theorem run_captures_garbled :
    ((repeating garbled).run true ⟨"docker", [], none, []⟩ []).1 =
        .ok ⟨some 0, "a\ufffd\nb\n", "\ufffd\nc\r\n"⟩ ∧
      ((repeating garbled).run true ⟨"docker", [], none, []⟩ []).2 =
        ["\ufffd", "a\ufffd", "c\r", "b"] ∧
      ∀ pipe, fromPipe pipe garbled.lines = plainLines (garbled.stream pipe) := by
  have h := run_captures (repeating garbled) (c := ⟨"docker", [], none, []⟩) (s := []) rfl
    (by decide) rfl (fun pipe => by cases pipe <;> decide)
  exact ⟨(h.1 true).trans (by rfl), h.2.1.trans (by rfl), h.2.2.1⟩

end ContainerBuild.Docker
