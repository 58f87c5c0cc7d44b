/-!
# Faults of files and sockets

The system reports a fault by a short text and a number. Reading text adds one fault of its own: a
file whose octets are not UTF-8.
-/

namespace SecureChannel

/-- Why the system did not read, write, bind, connect, send or receive. -/
inductive IoError
  | notFound
  | notDirectory
  | isDirectory
  | nameTooLong
  | messageTooLong
  | addressInUse
  | addressNotAvailable
  | networkUnreachable
  | notText
  /-- Any other fault, in the system's words. -/
  | other (text : String)
deriving DecidableEq

namespace IoError

def message : IoError → String
  | notFound => "No such file or directory (os error 2)"
  | notDirectory => "Not a directory (os error 20)"
  | isDirectory => "Is a directory (os error 21)"
  | nameTooLong => "File name too long (os error 36)"
  | messageTooLong => "Message too long (os error 90)"
  | addressInUse => "Address already in use (os error 98)"
  | addressNotAvailable => "Cannot assign requested address (os error 99)"
  | networkUnreachable => "Network is unreachable (os error 101)"
  | notText => "stream did not contain valid UTF-8"
  | other text => text

/-- The fault that the system reports by a number and a text. -/
def ofSystem (code : Nat) (text : String) : IoError :=
  match code with
  | 2 => notFound
  | 20 => notDirectory
  | 21 => isDirectory
  | 36 => nameTooLong
  | 90 => messageTooLong
  | 98 => addressInUse
  | 99 => addressNotAvailable
  | 101 => networkUnreachable
  | code => other s!"{text} (os error {code})"

end IoError

end SecureChannel
