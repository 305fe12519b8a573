/-
Postmortem/Proofs/Caching.lean

What a session remembers does not show.

Over time a session meets one memory after another: a timeline says what the
memory and the stacks are under each generation, and generations may come
back.  A session answers questions in the order they come, remembering as it
goes.  Beside it stands what the same question would get from a session just
started (`Event.freshReplies`).

    Session.replies t g (Session.start g) events = Event.freshReplies t g events

The invariant is `Session.Faithful`: whatever the session would look up under
its own generation is what working it out again under that generation gives.
It does not speak of the memory at hand, so moving the generation keeps it for
nothing; `Session.sync` is what makes the two agree before anything is looked
up.  Every question then has the answer `Question.answer` works out from the
capture alone, and so it has for the session just started, which is faithful
because it remembers nothing.
-/
import Postmortem.Session

namespace Postmortem

/-! ### Timelines, questions, events -/

/-- The layout of a target, and its memory and threads under each generation. -/
structure Timeline where
  layout : Layout
  memory : Nat → Image
  threads : Nat → Threads

/-- The capture under a generation. -/
def Timeline.capture (t : Timeline) (generation : Nat) : Capture where
  heap := ⟨{ t.memory generation with generation := generation }, t.layout⟩
  threads := t.threads generation

/-- What a session can be asked to do. -/
inductive Question where
  | inspect (word : Address) (o : Options)
  | inspectText (typed : String) (o : Options)
  | describe (word : Address) (o : Options)
  | report (word : Address) (o : Options)
  | typeName (word : Address)
  | keys (word : Address)
  | stringValue (word : Address)
  | decodeFrame (thread frame : Nat)
  | backtrace (thread current limit : Nat)
  | invalidate

/-- What comes back. -/
inductive Reply where
  | node (n : Node)
  | text (s : String)
  | report (r : Report)
  | keys (keys : List String)
  | line (line : FrameSummary)
  | page (page : Page FrameSummary)
  | done

/-- The reply in an answer, and the session after it. -/
def Session.Answer.reply {α : Type} (wrap : α → Reply) (a : Session.Answer α) :
    Except Failure Reply × Session :=
  (a.1.result.map wrap, a.2)

/-- Asks a session a question. -/
def Session.reply (s : Session) (c : Capture) : Question → Except Failure Reply × Session
  | .inspect word o => (s.inspect c word o).reply .node
  | .inspectText typed o => (s.inspectText c typed o).reply .node
  | .describe word o => (s.describe c word o).reply .text
  | .report word o => (s.report c word o).reply .report
  | .typeName word => (s.typeName c word).reply .text
  | .keys word => (s.keys c word).reply .keys
  | .stringValue word => (s.stringValue c word).reply .text
  | .decodeFrame thread frame => (s.decodeFrame c thread frame).reply .line
  | .backtrace thread current limit => (s.backtrace c thread current limit).reply .page
  | .invalidate => (.ok .done, s.invalidate)

/-- What happens to a session: it is asked, or the memory moves to a generation. -/
inductive Event where
  | ask (q : Question)
  | move (generation : Nat)

/-- The replies of one session to the questions among some events, from a generation on. -/
def Session.replies (t : Timeline) : Nat → Session → List Event → List (Except Failure Reply)
  | _, _, [] => []
  | g, s, .ask q :: events =>
    (s.reply (t.capture g) q).1 :: Session.replies t g (s.reply (t.capture g) q).2 events
  | _, s, .move g :: events => Session.replies t g s events

/-- The replies to the same questions when each is put to a session just started. -/
def Event.freshReplies (t : Timeline) : Nat → List Event → List (Except Failure Reply)
  | _, [] => []
  | g, .ask q :: events =>
    ((Session.start g).reply (t.capture g) q).1 :: Event.freshReplies t g events
  | _, .move g :: events => Event.freshReplies t g events

/-! ### Answers without a session -/

/-- The line of frame `frame` of a thread, worked out. -/
def Capture.line (c : Capture) (thread frame : Nat) : Except Failure FrameSummary := do
  let frames ← c.threads.frames thread
  match frames[frame]? with
  | some f => (FrameSummary.of f c.heap).result
  | none => .error (.argument (.noFrame thread frames.length frame))

/-- The lines of some frames, worked out. -/
def Capture.lines (c : Capture) : List Frame → Except Failure (List FrameSummary)
  | [] => .ok []
  | f :: frames => do pure ((← (FrameSummary.of f c.heap).result) :: (← c.lines frames))

/-- A page of a thread's backtrace, worked out. -/
def Capture.page (c : Capture) (thread current limit : Nat) :
    Except Failure (Page FrameSummary) := do
  let frames ← c.threads.frames thread
  let w := Window.of current limit frames.length
  (c.lines (w.slice frames)).map (⟨·, w⟩)

/-- The node of a word, worked out. -/
def Capture.node (c : Capture) (word : Address) (o : Options) : Except Failure Node :=
  (inspectWord word o c.heap).result

/-- The answer to a question, worked out from the capture alone. -/
def Question.answer (c : Capture) : Question → Except Failure Reply
  | .inspect word o => (c.node word o).map .node
  | .inspectText typed o => do (c.node (← Address.parse typed) o).map .node
  | .describe word o => (c.node word o).map (.text ·.text)
  | .report word o =>
    (inspectWord word o c.heap).caught.result.map fun found => .report (.of word found)
  | .typeName word =>
    (Postmortem.typeName (.classify c.heap.layout word.word) c.heap).result.map .text
  | .keys word => (keysOf word c.heap).result.map .keys
  | .stringValue word => (stringOf word c.heap).result.map .text
  | .decodeFrame thread frame => (c.line thread frame).map .line
  | .backtrace thread current limit => (c.page thread current limit).map .page
  | .invalidate => .ok .done

/-! ### The invariant -/

namespace Session

variable {t : Timeline} {s : Session} {g : Nat}

/-- What the session would look up is what working it out again gives. -/
structure Faithful (t : Timeline) (s : Session) : Prop where
  node : ∀ word o n, s.nodes[(word, o)]? = some n →
    (t.capture s.generation).node word o = .ok n
  line : ∀ thread frame l, s.lines[(⟨thread, frame, s.generation⟩ : FrameKey)]? = some l →
    (t.capture s.generation).line thread frame = .ok l

theorem faithful_start (t : Timeline) (g : Nat) : (start g).Faithful t := by
  refine ⟨?_, ?_⟩
  · intro word o n h
    simp [start] at h
  · intro thread frame l h
    simp [start] at h

theorem faithful_sync (hs : s.Faithful t) (c : Capture) : (s.sync c).Faithful t := by
  unfold sync
  split
  · exact hs
  · exact faithful_start t _

@[simp] theorem generation_sync (s : Session) (t : Timeline) (g : Nat) :
    (s.sync (t.capture g)).generation = g := by
  unfold sync
  split
  · assumption
  · rfl

/-- Remembering a node that was worked out keeps the session faithful. -/
theorem faithful_insert_node (hs : s.Faithful t) {word : Address} {o : Options} {n : Node}
    (hn : (t.capture s.generation).node word o = .ok n) :
    Faithful t { s with nodes := s.nodes.insert (word, o) n } := by
  refine ⟨?_, hs.line⟩
  intro word' o' n' h
  simp only [Std.HashMap.getElem?_insert, beq_iff_eq, Prod.mk.injEq] at h
  split at h
  case isTrue heq =>
    obtain ⟨rfl, rfl⟩ := heq
    obtain rfl := Option.some.inj h
    exact hn
  case isFalse => exact hs.node _ _ _ h

/-- Remembering a line that was worked out keeps the session faithful. -/
theorem faithful_insert_line (hs : s.Faithful t) {thread frame : Nat} {l : FrameSummary}
    (hl : (t.capture s.generation).line thread frame = .ok l) :
    Faithful t { s with lines := s.lines.insert ⟨thread, frame, s.generation⟩ l } := by
  refine ⟨hs.node, ?_⟩
  intro thread' frame' l' h
  simp only [Std.HashMap.getElem?_insert, beq_iff_eq, FrameKey.mk.injEq] at h
  split at h
  case isTrue heq =>
    obtain ⟨rfl, rfl, -⟩ := heq
    obtain rfl := Option.some.inj h
    exact hl
  case isFalse => exact hs.line _ _ _ h

/-! ### What each question does -/

theorem inspect_spec (hs : s.Faithful t) (word : Address) (o : Options) :
    (s.inspect (t.capture g) word o).1.result = (t.capture g).node word o ∧
      (s.inspect (t.capture g) word o).1.gaveUp = (inspectWord word o (t.capture g).heap).gaveUp ∧
      (s.inspect (t.capture g) word o).2.Faithful t := by
  have hf := faithful_sync hs (t.capture g)
  have hg := generation_sync s t g
  unfold inspect
  generalize s.sync (t.capture g) = s at hf hg
  dsimp only
  split
  case h_1 n hn =>
    -- What is remembered was found once, and what found something returned.
    have hnode : (t.capture g).node word o = .ok n := hg ▸ hf.node _ _ _ hn
    exact ⟨hnode.symm, ((inspectWord word o (t.capture g).heap).returned n hnode).symm, hf⟩
  case h_2 =>
    split
    case h_1 n hn =>
      refine ⟨rfl, rfl, faithful_insert_node hf ?_⟩
      rw [hg]
      exact hn
    case h_2 => exact ⟨rfl, rfl, hf⟩

theorem inspectText_spec (hs : s.Faithful t) (typed : String) (o : Options) :
    (s.inspectText (t.capture g) typed o).1.result =
        (do (t.capture g).node (← Address.parse typed) o) ∧
      (s.inspectText (t.capture g) typed o).2.Faithful t := by
  unfold inspectText
  split
  case h_1 word hword =>
    rw [hword]
    obtain ⟨hresult, -, hfaithful⟩ := inspect_spec hs word o (g := g)
    exact ⟨hresult, hfaithful⟩
  case h_2 e he =>
    rw [he]
    exact ⟨rfl, hs⟩

/-- Asking for a frame that the thread has. -/
theorem summarize_spec (hs : s.Faithful t) (hg : s.generation = g) {thread frame : Nat}
    {frames : List Frame} {f : Frame} (hframes : (t.capture g).threads.frames thread = .ok frames)
    (hf : frames[frame]? = some f) :
    (s.summarize (t.capture g) thread frame f).1.result =
        (FrameSummary.of f (t.capture g).heap).result ∧
      (s.summarize (t.capture g) thread frame f).2.Faithful t ∧
      (s.summarize (t.capture g) thread frame f).2.generation = g := by
  have hline : (t.capture g).line thread frame = (FrameSummary.of f (t.capture g).heap).result := by
    simp only [Capture.line, hframes, bind, Except.bind, hf]
  unfold summarize
  dsimp only
  split
  case h_1 l hl =>
    refine ⟨?_, hs, hg⟩
    rw [← hline, ← hg, hs.line _ _ _ hl]
    rfl
  case h_2 =>
    split
    case h_1 l hl =>
      refine ⟨rfl, faithful_insert_line hs ?_, hg⟩
      rw [hg, hline]
      exact hl
    case h_2 => exact ⟨rfl, hs, hg⟩

/-- The lines are those of the frames, whichever of them were remembered. -/
theorem summarizeAll_spec (hs : s.Faithful t) (hg : s.generation = g) {thread : Nat}
    {frames : List Frame} (hframes : (t.capture g).threads.frames thread = .ok frames)
    {index : Nat} {part : List Frame}
    (hpart : ∀ i f, part[i]? = some f → frames[index + i]? = some f) :
    (s.summarizeAll (t.capture g) thread index part).1.result = (t.capture g).lines part ∧
      (s.summarizeAll (t.capture g) thread index part).2.Faithful t := by
  induction part generalizing s index with
  | nil => exact ⟨rfl, hs⟩
  | cons f part ih =>
    -- The first line may be remembered now, and the session is faithful to it all the same.
    have hf : frames[index]? = some f := hpart 0 f rfl
    obtain ⟨hresult, hs', hg'⟩ := summarize_spec hs hg hframes hf
    have hrest' (i : Nat) (f' : Frame) (hi : part[i]? = some f') :
        frames[index + 1 + i]? = some f' := by
      rw [Nat.add_assoc, Nat.add_comm 1 i]
      exact hpart (i + 1) f' hi
    obtain ⟨hrest, hfaithful⟩ := ih hs' hg' hrest'
    rw [summarizeAll, Capture.lines, ← hresult, ← hrest]
    dsimp only
    cases hfirst : (s.summarize (t.capture g) thread index f).1.result with
    | error e => exact ⟨rfl, hs'⟩
    | ok line => exact ⟨rfl, hfaithful⟩

theorem decodeFrame_spec (hs : s.Faithful t) (thread frame : Nat) :
    (s.decodeFrame (t.capture g) thread frame).1.result = (t.capture g).line thread frame ∧
      (s.decodeFrame (t.capture g) thread frame).2.Faithful t := by
  have hf := faithful_sync hs (t.capture g)
  have hg := generation_sync s t g
  unfold decodeFrame
  generalize s.sync (t.capture g) = s at hf hg
  dsimp only
  split
  case h_1 l hl => exact ⟨(hg ▸ hf.line _ _ _ hl).symm, hf⟩
  case h_2 =>
    split
    case h_1 e he => exact ⟨by rw [Capture.line, he]; rfl, hf⟩
    case h_2 frames hframes =>
      split
      case h_1 hnone =>
        refine ⟨?_, hf⟩
        simp only [Capture.line, hframes, bind, Except.bind, hnone]
        rfl
      case h_2 f hsome =>
        obtain ⟨hresult, hfaithful, -⟩ := summarize_spec hf hg hframes hsome
        refine ⟨?_, hfaithful⟩
        rw [hresult]
        simp [Capture.line, hframes, bind, Except.bind, hsome]

/-- Item `i` of a slice is item `start + i` of the list. -/
theorem getElem?_slice {α : Type} (w : Window) (items : List α) (i : Nat) (a : α)
    (h : (w.slice items)[i]? = some a) : items[w.start + i]? = some a := by
  unfold Window.slice at h
  rw [List.getElem?_take] at h
  split at h
  · rwa [List.getElem?_drop] at h
  · cases h

theorem backtrace_spec (hs : s.Faithful t) (thread current limit : Nat) :
    (s.backtrace (t.capture g) thread current limit).1.result =
        (t.capture g).page thread current limit ∧
      (s.backtrace (t.capture g) thread current limit).2.Faithful t := by
  have hf := faithful_sync hs (t.capture g)
  have hg := generation_sync s t g
  unfold backtrace
  generalize s.sync (t.capture g) = s at hf hg
  dsimp only
  split
  case h_1 e he => exact ⟨by rw [Capture.page, he]; rfl, hf⟩
  case h_2 frames hframes =>
    have hpart := getElem?_slice (Window.of current limit frames.length) frames
    obtain ⟨hresult, hfaithful⟩ := summarizeAll_spec hf hg hframes hpart
    refine ⟨?_, hfaithful⟩
    rw [Capture.page, hframes]
    exact congrArg (Except.map _) hresult

/-- Whatever a faithful session is asked, it replies what working it out gives and stays
faithful. -/
theorem reply_spec (hs : s.Faithful t) (q : Question) :
    (s.reply (t.capture g) q).1 = q.answer (t.capture g) ∧
      (s.reply (t.capture g) q).2.Faithful t := by
  cases q with
  | inspect word o =>
    obtain ⟨hresult, -, hfaithful⟩ := inspect_spec hs word o (g := g)
    exact ⟨congrArg (Except.map Reply.node) hresult, hfaithful⟩
  | inspectText typed o =>
    obtain ⟨hresult, hfaithful⟩ := inspectText_spec hs typed o (g := g)
    refine ⟨?_, hfaithful⟩
    show (s.inspectText (t.capture g) typed o).1.result.map Reply.node = _
    rw [hresult, Question.answer]
    cases Address.parse typed <;> rfl
  | describe word o =>
    obtain ⟨hresult, -, hfaithful⟩ := inspect_spec hs word o (g := g)
    refine ⟨?_, hfaithful⟩
    show (((s.inspect (t.capture g) word o).1.result.map Node.text).map Reply.text) = _
    rw [hresult, Question.answer]
    cases (t.capture g).node word o <;> rfl
  | report word o =>
    obtain ⟨hresult, hgaveUp, hfaithful⟩ := inspect_spec hs word o (g := g)
    refine ⟨?_, hfaithful⟩
    have hcaught : (s.inspect (t.capture g) word o).1.caught.result =
        (inspectWord word o (t.capture g).heap).caught.result := by
      simp only [Outcome.caught, hresult, hgaveUp, Capture.node]
    show (((s.inspect (t.capture g) word o).1.caught.result.map (Report.of word)).map
      Reply.report) = _
    rw [hcaught, Question.answer]
    cases (inspectWord word o (t.capture g).heap).caught.result <;> rfl
  | typeName word => exact ⟨rfl, faithful_sync hs _⟩
  | keys word => exact ⟨rfl, faithful_sync hs _⟩
  | stringValue word => exact ⟨rfl, faithful_sync hs _⟩
  | decodeFrame thread frame =>
    obtain ⟨hresult, hfaithful⟩ := decodeFrame_spec hs thread frame (g := g)
    exact ⟨congrArg (Except.map Reply.line) hresult, hfaithful⟩
  | backtrace thread current limit =>
    obtain ⟨hresult, hfaithful⟩ := backtrace_spec hs thread current limit (g := g)
    exact ⟨congrArg (Except.map Reply.page) hresult, hfaithful⟩
  | invalidate => exact ⟨rfl, faithful_start t _⟩

/-! ### The theorem -/

/-- A faithful session replies like sessions just started, whatever happens. -/
theorem replies_of_faithful (hs : s.Faithful t) (g : Nat) (events : List Event) :
    replies t g s events = Event.freshReplies t g events := by
  induction events generalizing s g with
  | nil => rfl
  | cons event events ih =>
    cases event with
    | ask q =>
      -- The session just started is faithful too, so both reply what working it out gives.
      obtain ⟨hreply, hfaithful⟩ := reply_spec hs q (g := g)
      obtain ⟨hfresh, -⟩ := reply_spec (faithful_start t g) q (g := g)
      rw [replies, Event.freshReplies, hreply, hfresh, ih hfaithful g]
    | move g' => exact ih hs g'

/-- **Caching is invisible.** A session that lives through any events, generations that come back
among them, replies to each question what a session started for that question would reply. -/
theorem replies_eq_freshReplies (t : Timeline) (g : Nat) (events : List Event) :
    replies t g (start g) events = Event.freshReplies t g events :=
  replies_of_faithful (faithful_start t g) g events

end Session

end Postmortem
