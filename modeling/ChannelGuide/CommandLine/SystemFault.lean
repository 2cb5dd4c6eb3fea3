/-!
What the operating system may have against a path, in its own words.
-/
namespace ChannelGuide

inductive SystemFault where
  | noSuchFile
  | permissionDenied
  | fileExists
  | notDirectory
  | isDirectory
  /-- Any other fault, by its number. -/
  | other (code : Nat) (text : String)
  /-- The file holds no characters. -/
  | notText
  /-- The path has a character in it that ends a path. -/
  | nulInPath
deriving DecidableEq, Repr

namespace SystemFault

def numbered (text : String) (code : Nat) : String := s!"{text} (os error {code})"

def message : SystemFault → String
  | .noSuchFile => numbered "No such file or directory" 2
  | .permissionDenied => numbered "Permission denied" 13
  | .fileExists => numbered "File exists" 17
  | .notDirectory => numbered "Not a directory" 20
  | .isDirectory => numbered "Is a directory" 21
  | .other code text => numbered text code
  | .notText => "stream did not contain valid UTF-8"
  | .nulInPath => "file name contained an unexpected NUL byte"

def ofCode (code : Nat) (text : String) : SystemFault :=
  match code with
  | 2 => .noSuchFile
  | 13 => .permissionDenied
  | 17 => .fileExists
  | 20 => .notDirectory
  | 21 => .isDirectory
  | code => .other code text

end SystemFault
end ChannelGuide
