import Collectives.Element.Kind
import Collectives.Fault
import Collectives.Memory.Place
import Collectives.Text.Quoted

/-!
# Errors

An error is a cause; `Error.message` is its wording. What a caller did wrong is a `Violation`, found before
anything reaches the substrate; such errors can be retried with better arguments. A call that ends without an
answer ends in a `Failure`: an error, a fault, or the end of the process.
-/

namespace Collectives

/-- Arguments that break a rule of the library. -/
inductive Violation where
  /-- Data of another length than the shape asks for. -/
  | shapeCount (shape : List Nat) (numel given : Nat)
  /-- A flat buffer was asked for no buffers. -/
  | nothingToFlatten
  /-- Dimension 0 of a buffer without dimensions. -/
  | zeroDimensional
  /-- Only a contiguous buffer can be reshaped. -/
  | reshapeStrided
  /-- A reshape that changes the number of elements. -/
  | reshapeCount (numel : Nat) (shape : List Nat)
  /-- Rows past the end of dimension 0. -/
  | rowRange (start stop rows : Nat)
  /-- Row counts that do not add up to dimension 0. -/
  | splitTotal (total rows : Nat)
  /-- Elements past the end of the block. -/
  | extentRange (length offset : Nat)
  /-- A dimension that does not exist. -/
  | swapDims (dim0 dim1 dims : Nat)
  /-- Elements read as another type. -/
  | readType (held asked : ElementType)
  /-- Elements written as another type. -/
  | writeType (held given : ElementType)
  /-- Data of another length than the buffer. -/
  | writeCount (held given : Nat)
  /-- A copy between two types. -/
  | copyType (source target : ElementType)
  /-- A copy between two lengths. -/
  | copyCount (source target : Nat)
  /-- A layout was asked for no buffers. -/
  | nothingToReconcile
  /-- Rows that cannot be shared out evenly. -/
  | unevenRows (rows size : Nat)
  /-- Another number of splits than ranks. -/
  | splitLength (given size : Nat)
  /-- Sparse memory. -/
  | sparse
  /-- Memory of an accelerator. -/
  | foreignDevice (device : Device)
  /-- Elements with gaps between them. -/
  | notContiguous
  /-- Buffers of different length or type. -/
  | unequalBuffers
  /-- Buffers of different type. -/
  | unequalTypes
  /-- One buffer for every rank was asked for. -/
  | listLength (operation side : String) (given size : Nat)
  /-- Only the root passes a list. -/
  | listOffRoot (operation side : String)
  /-- The root's own share differs between the two sides. -/
  | ownShare (operation : String)
  /-- Input and output of an exchange differ in type. -/
  | exchangeTypes (input output : ElementType)
  /-- One buffer for every rank was asked for. -/
  | exchangeLength (side : String) (given size : Nat)
  /-- The launcher named another rank. -/
  | launchRank (expected actual : Nat)
  /-- The launcher named another size. -/
  | launchSize (expected actual : Nat)
  /-- Any other rule, in words. -/
  | rule (text : String)
  deriving DecidableEq, Repr

/-- Wording of a violation. -/
def Violation.message : Violation → String
  | .shapeCount shape numel given =>
    s!"shape {Text.numbers shape} holds {numel} elements, got {given}"
  | .nothingToFlatten => "cannot build a flat buffer from an empty list"
  | .zeroDimensional => "dimension 0 requested on a zero-dimensional buffer"
  | .reshapeStrided => "view requires a contiguous buffer"
  | .reshapeCount numel shape => s!"cannot view {numel} elements as {Text.numbers shape}"
  | .rowRange start stop rows =>
    s!"narrow [{start}, {stop}) exceeds dimension 0 of size {rows}"
  | .splitTotal total rows => s!"split sizes sum to {total}, dimension 0 is {rows}"
  | .extentRange length offset =>
    s!"extent of {length} elements at offset {offset} exceeds the allocation"
  | .swapDims dim0 dim1 dims => s!"transpose({dim0}, {dim1}) on a {dims}-dimensional buffer"
  | .readType held asked => s!"buffer holds {held.name}, requested {asked.name}"
  | .writeType held given => s!"buffer holds {held.name}, got {given.name}"
  | .writeCount held given => s!"buffer holds {held} elements, got {given}"
  | .copyType source target => s!"copy from {source.name} into {target.name}"
  | .copyCount source target => s!"copy of {source} elements into {target}"
  | .nothingToReconcile => "cannot reconcile an empty buffer list"
  | .unevenRows rows size =>
    s!"dimension 0 of size {rows} does not divide equally across group size {size}"
  | .splitLength given size => s!"number of splits ({given}) not equal to group size ({size})"
  | .sparse => "buffer has to be dense"
  | .foreignDevice device => s!"{device.name} buffer detected; only host memory is supported"
  | .notContiguous => "buffer has to be contiguous"
  | .unequalBuffers => "buffers are not equal in size or element type"
  | .unequalTypes => "buffers are not equal in element type"
  | .listLength operation side given size =>
    s!"{operation}: number of {side} buffers ({given}) should equal the group size ({size})"
  | .listOffRoot operation side => s!"{operation}: non-root ranks must pass no {side} buffers"
  | .ownShare operation => s!"{operation}: send and receive counts don't match"
  | .exchangeTypes input output =>
    s!"all-to-all between {input.name} input and {output.name} output"
  | .exchangeLength side given size =>
    s!"number of {side} buffers ({given}) not equal to group size ({size})"
  | .launchRank expected actual => s!"unexpected rank {expected}, substrate rank {actual}"
  | .launchSize expected actual => s!"unexpected size {expected}, substrate size {actual}"
  | .rule text => text

/-- Why a call was refused. -/
inductive Error where
  /-- A process-wide environment is in place already. -/
  | alreadyInitialized
  /-- The environment is finalized. -/
  | notInitialized
  /-- A root outside the group. -/
  | invalidRank (rank size : Nat)
  /-- Arguments that break a rule. -/
  | validation (cause : Violation)
  /-- An element type the substrate cannot move. -/
  | unsupportedType (dtype : ElementType)
  /-- A reduction the substrate cannot perform. -/
  | unsupportedReduction (reduction : Reduction)
  /-- A call this engine does not offer. -/
  | unsupported (feature : String)
  /-- The substrate refused, at a call site. -/
  | substrate (site reason : String)
  /-- A question that has no answer yet. -/
  | invalidState (reason : String)
  /-- A call that exists in name only. -/
  | notImplemented (feature : String)
  /-- A setting that cannot be read. -/
  | config (reason : String)
  /-- A broken promise of the library itself. -/
  | internal (reason : String)
  deriving DecidableEq, Repr

/-- Name of the kind of error. -/
def Error.kind : Error → String
  | .alreadyInitialized => "AlreadyInitialized"
  | .notInitialized => "NotInitialized"
  | .invalidRank .. => "InvalidRank"
  | .validation .. => "Validation"
  | .unsupportedType .. => "UnsupportedType"
  | .unsupportedReduction .. => "UnsupportedReduction"
  | .unsupported .. => "Unsupported"
  | .substrate .. => "Substrate"
  | .invalidState .. => "InvalidState"
  | .notImplemented .. => "NotImplemented"
  | .config .. => "Config"
  | .internal .. => "Internal"

/-- Wording of an error. -/
def Error.message : Error → String
  | .alreadyInitialized => "substrate environment has already been initialized"
  | .notInitialized => "substrate environment is not initialized"
  | .invalidRank rank size => s!"unexpected rank {rank} for group of size {size}"
  | .validation cause => s!"validation failed: {cause.message}"
  | .unsupportedType dtype => s!"element type {dtype.name} is not supported by the substrate"
  | .unsupportedReduction reduction =>
    s!"reduction {reduction.name} is not supported by the substrate"
  | .unsupported feature => s!"process group does not support {feature}"
  | .substrate site reason => s!"substrate error in {site}: {reason}"
  | .invalidState reason => s!"invalid state: {reason}"
  | .notImplemented feature => s!"not implemented: {feature}"
  | .config reason => s!"configuration error: {reason}"
  | .internal reason => s!"Internal error: {reason}"

/-- An error written out with its kind and contents. -/
def Error.describe (e : Error) : String :=
  match e with
  | .alreadyInitialized | .notInitialized => e.kind
  | .invalidRank rank size => Text.record e.kind [("rank", toString rank), ("size", toString size)]
  | .validation cause => Text.tagged e.kind (Text.quoted cause.message)
  | .unsupportedType dtype => Text.tagged e.kind dtype.name
  | .unsupportedReduction reduction => Text.tagged e.kind reduction.name
  | .substrate site reason =>
    Text.record e.kind [("site", Text.quoted site), ("message", Text.quoted reason)]
  | .unsupported text | .invalidState text | .notImplemented text | .config text | .internal text =>
    Text.tagged e.kind (Text.quoted text)

/-- Whether the error was found before any call of the substrate. -/
def Error.isValidation : Error → Bool
  | .validation .. | .invalidRank .. | .unsupportedType .. | .unsupportedReduction .. => true
  | _ => false

/-- Whether the call can succeed when it is made again with better arguments. -/
def Error.isRetryable (e : Error) : Bool := e.isValidation

/-- How a call ends that has no answer. -/
inductive Failure where
  /-- The call was refused. -/
  | error (cause : Error)
  /-- The call stopped half-way. -/
  | fault (cause : Fault)
  /-- The process ended: a handle of this operation was dropped while pending. -/
  | abort (operation : String)
  deriving DecidableEq, Repr

instance : MonadLift (Except Fault) (Except Failure) where
  monadLift := Except.mapError .fault

/-- Refuses with a violation unless the condition holds. -/
def require (condition : Bool) (cause : Violation) : Except Failure Unit :=
  if condition then .ok () else .error (.error (.validation cause))

/-- The tag of an element type, or the refusal to move it. -/
def ElementType.tag (t : ElementType) : Except Failure Tag :=
  match t.tag? with
  | some tag => .ok tag
  | none => .error (.error (.unsupportedType t))

/-- The operator of a reduction, or the refusal to perform it. -/
def Reduction.operator (r : Reduction) : Except Failure Operator :=
  match r.operator? with
  | some op => .ok op
  | none => .error (.error (.unsupportedReduction r))

end Collectives
