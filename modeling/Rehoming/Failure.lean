import Rehoming.Error

/-! Why a run failed: the cause, and what the program was doing, outermost first. -/

namespace Rehoming

/-- What an operating system says to a request for a file. -/
inductive OsError where
  | notFound
  | isDirectory
  | notDirectory
  | nameTooLong
  | busy
  /-- A name that no file can have. -/
  | invalidName
  /-- Bytes that are no text where text is called for. -/
  | invalidText
  | other (text : String)
  deriving DecidableEq

def OsError.message : OsError → String
  | .notFound => "No such file or directory (os error 2)"
  | .isDirectory => "Is a directory (os error 21)"
  | .notDirectory => "Not a directory (os error 20)"
  | .nameTooLong => "File name too long (os error 36)"
  | .busy => "Device or resource busy (os error 16)"
  | .invalidName => "file name contained an unexpected NUL byte"
  | .invalidText => "stream did not contain valid UTF-8"
  | .other text => text

inductive Cause where
  | os (error : OsError)
  /-- A document is malformed, or not of the kind it should be. -/
  | badDocument
  | badSettings
  | refused (error : Error)
  deriving DecidableEq

/-- What there is to say about a cause; marks on an error say it again in part. -/
def Cause.messages : Cause → List String
  | .os error => [error.message]
  | .badDocument => ["malformed document"]
  | .badSettings => ["malformed settings"]
  | .refused error => error.chain.map Error.message

structure Failure where
  contexts : List String
  cause : Cause
  deriving DecidableEq

namespace Failure

def messages (f : Failure) : List String := f.contexts ++ f.cause.messages

/-- All messages, the causes under one heading. -/
def report (f : Failure) : String :=
  match f.messages with
  | [] => "Error"
  | [message] => "Error: " ++ message
  | [message, cause] => "Error: " ++ message ++ "\n\nCaused by:\n    " ++ cause
  | message :: causes =>
    "Error: " ++ message ++ "\n\nCaused by:" ++ String.join (causes.zipIdx.map fun c =>
      "\n    " ++ toString c.2 ++ ": " ++ c.1)

end Failure
end Rehoming
