namespace SignerBench.Files

structure OsError where
  /-- The system's number for the error. An error that is found before the system is asked has none. -/
  code : Option Nat
  text : String
  deriving DecidableEq, Repr

namespace OsError

def message (e : OsError) : String :=
  match e.code with
  | some code => e.text ++ " (os error " ++ toString code ++ ")"
  | none => e.text

def notFound : OsError := ⟨some 2, "No such file or directory"⟩

def argumentsTooLong : OsError := ⟨some 7, "Argument list too long"⟩

def permission : OsError := ⟨some 13, "Permission denied"⟩

def alreadyThere : OsError := ⟨some 17, "File exists"⟩

def notDirectory : OsError := ⟨some 20, "Not a directory"⟩

def isDirectory : OsError := ⟨some 21, "Is a directory"⟩

def invalid : OsError := ⟨some 22, "Invalid argument"⟩

def brokenPipe : OsError := ⟨some 32, "Broken pipe"⟩

def nameTooLong : OsError := ⟨some 36, "File name too long"⟩

def notEmpty : OsError := ⟨some 39, "Directory not empty"⟩

/-- The system takes a zero byte for the end of a text. -/
def zeroInName : OsError := ⟨none, "file name contained an unexpected NUL byte"⟩

def zeroInArgument : OsError := ⟨none, "nul byte found in provided data"⟩

end OsError

end SignerBench.Files
