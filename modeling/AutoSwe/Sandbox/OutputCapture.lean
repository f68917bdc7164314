import AutoSwe.Persistence.Artifacts

/-!
# Captured output

The collector reads the frames of a container's output as they come, keeps what
fits into each stream's limit and counts all of it.
-/

namespace AutoSwe.Sandbox

open List

/-- The output limits of `SandboxPolicy`. -/
structure OutputPolicy where
  maxStdoutBytes : Nat
  maxStderrBytes : Nat
  maxTotalOutputBytes : Nat

/-- What the stream yields: a pair of chunks, one chunk, or something else. -/
inductive Frame
  | pair (stdout stderr : Option Bytes)
  | single (stdout : Bytes)
  | other

def Frame.chunks : Frame → Bytes × Bytes
  | pair stdout stderr => (stdout.getD [], stderr.getD [])
  | single stdout => (stdout, [])
  | other => ([], [])

/-- The buffer and the byte counter of a stream. -/
structure Captured where
  buffer : Bytes := []
  bytes : Nat := 0

/-- Where nothing remains the slice is empty. -/
def Captured.extend (maximum : Nat) (s : Captured) (chunk : Bytes) : Captured :=
  ⟨s.buffer ++ chunk.take (maximum - s.buffer.length), s.bytes + chunk.length⟩

structure OutputCollector where
  stdout : Captured := {}
  stderr : Captured := {}
  limitReached : Bool := false
  complete : Bool := false
  failed : Bool := false

namespace OutputCollector

variable (policy : OutputPolicy)

def append (c : OutputCollector) (chunk : Bytes) (stdout : Bool) : OutputCollector :=
  let c :=
    if stdout then
      let stdout := c.stdout.extend policy.maxStdoutBytes chunk
      { c with
        stdout, limitReached := c.limitReached || decide (policy.maxStdoutBytes < stdout.bytes) }
    else
      let stderr := c.stderr.extend policy.maxStderrBytes chunk
      { c with
        stderr, limitReached := c.limitReached || decide (policy.maxStderrBytes < stderr.bytes) }
  { c with
    limitReached := c.limitReached ||
      decide (policy.maxTotalOutputBytes < c.stdout.bytes + c.stderr.bytes) }

/-- The body of the loop; an empty chunk is not appended. -/
def consumeFrame (c : OutputCollector) (frame : Frame) : OutputCollector :=
  let c := if frame.chunks.1 = [] then c else c.append policy frame.chunks.1 true
  if frame.chunks.2 = [] then c else c.append policy frame.chunks.2 false

/-- The stream ends after its frames, or raises an error that is caught. -/
def consume (frames : List Frame) (raises : Bool) : OutputCollector :=
  { frames.foldl (consumeFrame policy) {} with failed := raises, complete := true }

/-- The collector has read `out` and `err`. -/
structure Captures (out err : Bytes) (c : OutputCollector) : Prop where
  stdout : c.stdout = ⟨out.take policy.maxStdoutBytes, out.length⟩
  stderr : c.stderr = ⟨err.take policy.maxStderrBytes, err.length⟩
  limitReached : c.limitReached = true ↔ policy.maxStdoutBytes < out.length ∨
    policy.maxStderrBytes < err.length ∨ policy.maxTotalOutputBytes < out.length + err.length

variable {policy} {out err : Bytes} {c : OutputCollector}

theorem extend_take (out chunk : Bytes) (maximum : Nat) :
    Captured.extend maximum ⟨out.take maximum, out.length⟩ chunk =
      ⟨(out ++ chunk).take maximum, (out ++ chunk).length⟩ := by
  rw [Captured.extend, take_append, length_append, length_take]
  congr 3
  omega

theorem Captures.append (h : Captures policy out err c) (chunk : Bytes) (stdout : Bool) :
    Captures policy (if stdout then out ++ chunk else out) (if stdout then err else err ++ chunk)
      (c.append policy chunk stdout) := by
  obtain ⟨hout, herr, hlimit⟩ := h
  cases stdout with
  | true =>
    refine ⟨?_, herr, ?_⟩
    · simp only [OutputCollector.append, hout, if_true, extend_take]
    · simp [OutputCollector.append, hlimit, hout, herr, Captured.extend]
      omega
  | false =>
    refine ⟨hout, ?_, ?_⟩
    · simp only [OutputCollector.append, herr, Bool.false_eq_true, if_false, extend_take]
    · simp [OutputCollector.append, hlimit, hout, herr, Captured.extend]
      omega

theorem Captures.frame (h : Captures policy out err c) (frame : Frame) :
    Captures policy (out ++ frame.chunks.1) (err ++ frame.chunks.2)
      (c.consumeFrame policy frame) := by
  have hstdout : Captures policy (out ++ frame.chunks.1) err
      (if frame.chunks.1 = [] then c else c.append policy frame.chunks.1 true) := by
    split
    · simp [*]
    · exact h.append _ true
  rw [consumeFrame]
  split
  · simp [*]
  · exact hstdout.append _ false

theorem Captures.frames (h : Captures policy out err c) (frames : List Frame) :
    Captures policy (out ++ frames.flatMap (·.chunks.1)) (err ++ frames.flatMap (·.chunks.2))
      (frames.foldl (consumeFrame policy) c) := by
  induction frames generalizing out err c with
  | nil => simpa using h
  | cons frame rest ih => simpa using ih (h.frame frame)

/-- However the streams are cut into frames, the collector has captured them. -/
theorem consume_captures (policy : OutputPolicy) (frames : List Frame) (raises : Bool) :
    Captures policy (frames.flatMap (·.chunks.1)) (frames.flatMap (·.chunks.2))
      (consume policy frames raises) := by
  have hstart : Captures policy [] [] {} := by constructor <;> simp
  exact { hstart.frames frames with }

end OutputCollector

end AutoSwe.Sandbox
