import DescriptorTables.Layout

namespace DescriptorTables

inductive Width
  | bits16
  | bits32
  | bits64
  deriving DecidableEq

def Width.text : Width → String
  | bits16 => "16"
  | bits32 => "32"
  | bits64 => "64"

def Mode.width : Mode → Width
  | protected32 => .bits32
  | long64 => .bits64

inductive SystemKind
  | ldt
  | tss (width : Width) (busy : Bool)
  | taskGate
  | callGate (width : Width)
  | interruptGate (width : Width)
  | trapGate (width : Width)
  deriving DecidableEq

namespace SystemKind

/-- The types from 9 on are as wide as the mode; long mode has none of the narrower ones except 2. -/
def ofType? (type : Nat) (mode : Mode) : Option SystemKind :=
  match mode, type with
  | .protected32, 0x1 => some (.tss .bits16 false)
  | _, 0x2 => some .ldt
  | .protected32, 0x3 => some (.tss .bits16 true)
  | .protected32, 0x4 => some (.callGate .bits16)
  | .protected32, 0x5 => some .taskGate
  | .protected32, 0x6 => some (.interruptGate .bits16)
  | .protected32, 0x7 => some (.trapGate .bits16)
  | mode, 0x9 => some (.tss mode.width false)
  | mode, 0xB => some (.tss mode.width true)
  | mode, 0xC => some (.callGate mode.width)
  | mode, 0xE => some (.interruptGate mode.width)
  | mode, 0xF => some (.trapGate mode.width)
  | _, _ => none

def type : SystemKind → Nat
  | tss .bits16 false => 0x1
  | ldt => 0x2
  | tss .bits16 true => 0x3
  | callGate .bits16 => 0x4
  | taskGate => 0x5
  | interruptGate .bits16 => 0x6
  | trapGate .bits16 => 0x7
  | tss _ false => 0x9
  | tss _ true => 0xB
  | callGate _ => 0xC
  | interruptGate _ => 0xE
  | trapGate _ => 0xF

def label : SystemKind → String
  | ldt => "ldt"
  | tss width false => "tss-" ++ width.text ++ "-available"
  | tss width true => "tss-" ++ width.text ++ "-busy"
  | taskGate => "task-gate"
  | callGate width => "call-gate-" ++ width.text
  | interruptGate width => "int-gate-" ++ width.text
  | trapGate width => "trap-gate-" ++ width.text

/-- Whether the entry describes memory of its own, not a way into a code segment. -/
def isSegment : SystemKind → Bool
  | ldt => true
  | tss _ _ => true
  | _ => false

def isGate (kind : SystemKind) : Bool :=
  !kind.isSegment

def isCallGate : SystemKind → Bool
  | callGate _ => true
  | _ => false

def isInterruptTableGate (kind : SystemKind) : Bool :=
  kind.isGate && !kind.isCallGate

def hasParamCount : SystemKind → Bool
  | callGate .bits16 => true
  | callGate .bits32 => true
  | _ => false

def hasStackIndex : SystemKind → Bool
  | interruptGate .bits64 => true
  | trapGate .bits64 => true
  | _ => false

theorem type_ofType? (n : Nat) (mode : Mode) (kind : SystemKind) (h : ofType? n mode = some kind) :
    kind.type = n := by
  cases mode <;> unfold ofType? at h <;> split at h <;> cases h <;> rfl

theorem type_lt (kind : SystemKind) : kind.type < 16 := by
  unfold type
  split <;> decide

end SystemKind

end DescriptorTables
