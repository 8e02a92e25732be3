/-!
# Positions and spans

Where a piece of a formula stands: a position is a line, a column and the byte offset they were
computed from, and a span is the stretch of one file between two positions.

## Main definitions

* `Position`, `Span`.
* `Span.join`: the smallest span that covers two.

## Main results

* `Span.join_self`, `Span.join_assoc`: joining is idempotent and associative on one file.
-/

namespace Formula

/-- A place in a text. Lines and columns count from one, columns in bytes; the offset counts the
bytes before the place. -/
structure Position where
  line : Nat
  column : Nat
  offset : Nat
deriving Repr, DecidableEq, Inhabited

namespace Position

/-- Line and column, as messages show them. -/
def text (p : Position) : String :=
  toString p.line ++ ":" ++ toString p.column

/-- The earlier of two places; the first one if they are level. -/
def earlier (p q : Position) : Position :=
  if p.offset ≤ q.offset then p else q

/-- The later of two places; the first one if they are level. -/
def later (p q : Position) : Position :=
  if q.offset ≤ p.offset then p else q

@[simp]
theorem earlier_offset (p q : Position) : (p.earlier q).offset = min p.offset q.offset := by
  simp only [earlier, Nat.min_def]
  split <;> rfl

@[simp]
theorem later_offset (p q : Position) : (p.later q).offset = max p.offset q.offset := by
  simp only [later, Nat.max_def]
  split <;> split <;> omega

end Position

/-- A stretch of the file numbered `file`, from `start` up to but not including `stop`. -/
structure Span where
  file : Nat
  start : Position
  stop : Position
deriving Repr, DecidableEq, Inhabited

namespace Span

/-- The span of what stands nowhere in a text. -/
def nowhere : Span :=
  ⟨0, ⟨0, 0, 0⟩, ⟨0, 0, 0⟩⟩

/-- The smallest span that covers both; the file is that of the first. -/
def join (s t : Span) : Span :=
  ⟨s.file, s.start.earlier t.start, s.stop.later t.stop⟩

/-- The two ends of the span, or its place if it is empty. -/
def text (s : Span) : String :=
  if s.start = s.stop then s.start.text else s.start.text ++ "-" ++ s.stop.text

@[simp]
theorem join_file (s t : Span) : (s.join t).file = s.file := rfl

@[simp]
theorem join_start_offset (s t : Span) :
    (s.join t).start.offset = min s.start.offset t.start.offset :=
  Position.earlier_offset ..

@[simp]
theorem join_stop_offset (s t : Span) :
    (s.join t).stop.offset = max s.stop.offset t.stop.offset :=
  Position.later_offset ..

theorem join_self (s : Span) : s.join s = s := by
  simp [join, Position.earlier, Position.later]

theorem join_assoc (s t u : Span) : (s.join t).join u = s.join (t.join u) := by
  simp only [join, Position.earlier, Position.later]
  grind

end Span

end Formula
