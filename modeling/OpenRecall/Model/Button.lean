import Mathlib

/-!
# The gestures of the button

The classifier is polled with the level of the button and a clock in milliseconds that wraps. It
tells a gesture when the pattern of holds and releases is decided.
-/

set_option autoImplicit false

namespace OpenRecall.Model

/-- SOURCE: config.h:135 -/
def buttonDoubleGapMs : UInt32 := 400

/-- SOURCE: config.h:136 -/
def buttonLongMs : UInt32 := 1000

/-- SOURCE: config.h:137 -/
def buttonVeryLongMs : UInt32 := 6000

/-- SOURCE: button.h:44-50 -/
inductive ButtonGesture where
  | none
  | short
  | double
  | long
  | veryLong
  deriving DecidableEq, Repr

/-- SOURCE: button.h:52-56 -/
inductive ButtonState where
  | idle
  | pressed
  | waitDouble
  deriving DecidableEq, Repr

/-- SOURCE: button.h:58-62 -/
structure ButtonClassifier where
  state : ButtonState
  anchorMs : UInt32
  secondTap : Bool
  deriving DecidableEq, Repr

namespace ButtonClassifier

/-- SOURCE: button.c:8-13 -/
def init (_nowMs : UInt32) : ButtonClassifier where
  state := .idle
  anchorMs := 0
  secondTap := false

/-- One poll: the classifier after it, and the gesture that it decides.
SOURCE: button.c:15-86 -/
def event (b : ButtonClassifier) (pressed : Bool) (nowMs : UInt32) :
    ButtonClassifier × ButtonGesture :=
  let dt := nowMs - b.anchorMs
  match b.state with
  | .idle =>
    if pressed then
      ({ b with anchorMs := nowMs, secondTap := false, state := .pressed }, .none)
    else (b, .none)
  | .pressed =>
    if pressed then
      -- still held
      if buttonVeryLongMs ≤ dt then ({ b with state := .idle, secondTap := false }, .veryLong)
      else (b, .none)
    else if buttonVeryLongMs ≤ dt then
      -- no poll saw the hold cross the bound
      ({ b with state := .idle, secondTap := false }, .veryLong)
    else if buttonLongMs ≤ dt then ({ b with state := .idle, secondTap := false }, .long)
    else if b.secondTap then ({ b with state := .idle, secondTap := false }, .double)
    else ({ b with anchorMs := nowMs, state := .waitDouble }, .none)
  | .waitDouble =>
    if pressed then
      if dt ≤ buttonDoubleGapMs then
        ({ b with anchorMs := nowMs, secondTap := true, state := .pressed }, .none)
      else ({ b with anchorMs := nowMs, secondTap := false, state := .pressed }, .short)
    else if buttonDoubleGapMs < dt then
      ({ b with state := .idle, secondTap := false }, .short)
    else (b, .none)

end ButtonClassifier

end OpenRecall.Model
