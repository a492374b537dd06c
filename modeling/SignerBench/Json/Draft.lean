import SignerBench.Json.Token

namespace SignerBench.Json

inductive Ending where
  | closed
  /-- The fault stands where a separator or the closing bracket should. -/
  | cut (fault : Fault)
  /-- The last part breaks off, with this fault for one who passes over it. -/
  | inside (passing : Fault)
  deriving Repr

/-- A text as far as it can be read: the leaves may be faulty and the branches cut short. A reader who walks it in order
meets the faults in the order in which they stand in the text. -/
inductive Draft where
  | scalar (value : Except Fault Scalar)
  | array (items : List Draft) (ending : Ending)
  /-- The entries, each with the value of its key or the fault in it. -/
  | object (entries : List (Except Fault String × Draft)) (ending : Ending)
  /-- No value: the fault for a reader, and for one who passes over it. -/
  | broken (reading passing : Fault)
  deriving Repr

/-- A tree, and the fault in what follows it. -/
structure Document where
  root : Draft
  trailing : Option Fault
  deriving Repr

def Ending.passing : Ending → Option Fault
  | .closed => none
  | .cut fault => some fault
  | .inside fault => some fault

/-- What one who passes over a value meets in it. -/
def Draft.passing : Draft → Option Fault
  | .scalar _ => none
  | .array _ ending => ending.passing
  | .object _ ending => ending.passing
  | .broken _ fault => some fault

/-- An unfinished branch, its parts in reverse. -/
inductive Frame where
  | array (items : List Draft)
  | object (entries : List (Except Fault String × Draft)) (key : Except Fault String)

def Frame.add (value : Draft) : Frame → Frame
  | .array items => .array (value :: items)
  | .object entries key => .object ((key, value) :: entries) key

def Frame.close (ending : Ending) : Frame → Draft
  | .array items => .array items.reverse ending
  | .object entries _ => .object entries.reverse ending

/-- Closes the branches around a value that breaks off. -/
def closeAll (passing : Fault) (value : Draft) : List Frame → Draft
  | [] => value
  | f :: fs => closeAll passing ((f.add value).close (.inside passing)) fs

/-- A value is missing here. -/
def breakOff (reading passing : Fault) (frames : List Frame) : Draft :=
  closeAll passing (.broken reading passing) frames

/-- The innermost branch breaks off between its parts. -/
def cutOff (fault : Fault) : List Frame → Draft
  | [] => .broken fault fault
  | f :: fs => closeAll fault (f.close (.cut fault)) fs

/-- Where the reader stands. -/
inductive Place where
  | value
  /-- Behind the bracket that opens an array. -/
  | firstValue
  | key
  /-- Behind the bracket that opens an object. -/
  | firstKey
  | colon
  /-- Behind a value. -/
  | after

inductive Reader where
  /-- Inside these branches, the innermost one first. -/
  | at (place : Place) (frames : List Frame)
  | done (root : Draft)
  | ended (document : Document)

def Reader.halt (root : Draft) : Reader := .ended ⟨root, none⟩

/-- A finished value takes its place in the innermost branch. -/
def Reader.settle (value : Draft) : List Frame → Reader
  | [] => .done value
  | f :: fs => .at .after (f.add value :: fs)

def Reader.value (frames : List Frame) : Token → Reader
  | .openArray => .at .firstValue (.array [] :: frames)
  | .openObject => .at .firstKey (.object [] (.error .misplaced) :: frames)
  | .scalar v => .settle (.scalar v) frames
  | .quoted v => .settle (.scalar (v.map .text)) frames
  | .brokenText reading passing | .broken reading passing => .halt (breakOff reading passing frames)
  | .closeArray | .closeObject | .comma | .colon => .halt (breakOff .misplaced .misplaced frames)

def Reader.key (frames : List Frame) (token : Token) : Reader :=
  match token, frames with
  | .quoted k, .object entries _ :: fs => .at .colon (.object entries k :: fs)
  | .brokenText reading passing, .object entries _ :: fs =>
    .halt (breakOff passing passing (.object entries (.error reading) :: fs))
  | _, _ => .halt (cutOff .misplaced frames)

/-- The bracket that closes the innermost branch. -/
def Reader.shut (frames : List Frame) (token : Token) : Option Reader :=
  match token, frames with
  | .closeArray, .array items :: fs => some (.settle (.array items.reverse .closed) fs)
  | .closeObject, .object entries _ :: fs => some (.settle (.object entries.reverse .closed) fs)
  | _, _ => none

def Reader.step (reader : Reader) (token : Token) : Reader :=
  match reader with
  | .ended document => .ended document
  | .done root => .ended ⟨root, some .misplaced⟩
  | .at .value frames => .value frames token
  | .at .firstValue frames => (Reader.shut frames token).getD (.value frames token)
  | .at .key frames => .key frames token
  | .at .firstKey frames => (Reader.shut frames token).getD (.key frames token)
  | .at .colon frames =>
    match token with
    | .colon => .at .value frames
    | _ => .halt (breakOff .misplaced .misplaced frames)
  | .at .after frames =>
    match token, frames with
    | .comma, .array _ :: _ => .at .value frames
    | .comma, .object _ _ :: _ => .at .key frames
    | _, _ => (Reader.shut frames token).getD (.halt (cutOff .misplaced frames))

def Reader.finish : Reader → Document
  | .ended document => document
  | .done root => ⟨root, none⟩
  | .at .value frames | .at .colon frames => ⟨breakOff .early .early frames, none⟩
  | .at _ frames => ⟨cutOff .early frames, none⟩

def Document.ofBytes (text : Bytes) : Document :=
  ((tokens text).foldl Reader.step (.at .value [])).finish

end SignerBench.Json
