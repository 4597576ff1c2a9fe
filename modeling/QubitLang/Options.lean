namespace QubitLang

structure Options where
  /-- The deepest nesting of brackets that is allowed. -/
  maxDepth : Nat := 100
  maxDepth_pos : 0 < maxDepth := by decide
  trace : Bool := false
  deriving DecidableEq, Repr

structure NonpositiveDepth where
  maxDepth : Int
  deriving DecidableEq, Repr

def NonpositiveDepth.message (_ : NonpositiveDepth) : String :=
  "max_depth must be positive"

def Options.ofMaxDepth (maxDepth : Int) (trace : Bool) :
    Except NonpositiveDepth Options :=
  if positive : 0 < maxDepth then
    .ok { maxDepth := maxDepth.toNat, maxDepth_pos := by omega, trace }
  else .error ⟨maxDepth⟩

/-! The matcher calls itself for every level of nesting. Before a match the
stack is therefore made high enough for the deepest text that the limit lets
through, where it is not high enough yet. No stack is higher than a count of
frames that a signed word of 32 bits can hold. -/

/-- The frames that a match needs without any nesting. -/
def baseFrames : Nat := 1000

def framesPerLevel : Nat := 64

def maxFrames : Nat := 0x7fffffff

structure FrameOverflow where
  frames : Nat
  deriving DecidableEq, Repr

def FrameOverflow.message (overflow : FrameOverflow) : String :=
  s!"no stack holds {overflow.frames} frames"

namespace Options

def frames (options : Options) : Nat :=
  baseFrames + framesPerLevel * (options.maxDepth + 1)

def HasRoom (options : Options) : Prop := options.frames ≤ maxFrames

instance (options : Options) : Decidable options.HasRoom :=
  inferInstanceAs (Decidable (_ ≤ _))

-- Raising the stack fails no matter how high it was before: it has never been
-- higher than `maxFrames`.
def reserveFrames (options : Options) : Except FrameOverflow Unit :=
  if options.HasRoom then .ok () else .error ⟨options.frames⟩

@[simp]
theorem reserveFrames_eq_ok_iff (options : Options) :
    options.reserveFrames = .ok () ↔ options.HasRoom := by
  simp [reserveFrames]

theorem reserveFrames_of_not_hasRoom {options : Options} (full : ¬ options.HasRoom) :
    options.reserveFrames = .error ⟨options.frames⟩ := if_neg full

theorem HasRoom.of_le {options other : Options} (room : other.HasRoom)
    (le : options.maxDepth ≤ other.maxDepth) : options.HasRoom := by
  simp only [HasRoom, frames, baseFrames, framesPerLevel, maxFrames] at *
  omega

end Options

end QubitLang
