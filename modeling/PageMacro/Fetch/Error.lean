import PageMacro.Disk.Fault
import PageMacro.Format
import PageMacro.Text.Quoted

/-!
# Requests and their faults
-/

namespace PageMacro.Fetch

/-- A request as a script writes it. -/
structure Request where
  method : String
  url : String
  body : String := ""
  deriving BEq, DecidableEq, Repr

/-- The usual phrase for a status; empty for a status without one. -/
def statusPhrase : Nat → String
  | 100 => "Continue" | 101 => "Switching Protocols" | 102 => "Processing" | 103 => "Early Hints"
  | 200 => "OK" | 201 => "Created" | 202 => "Accepted" | 203 => "Non-Authoritative Information"
  | 204 => "No Content" | 205 => "Reset Content" | 206 => "Partial Content"
  | 207 => "Multi-Status" | 208 => "Already Reported" | 226 => "IM Used"
  | 300 => "Multiple Choices" | 301 => "Moved Permanently" | 302 => "Found" | 303 => "See Other"
  | 304 => "Not Modified" | 305 => "Use Proxy" | 307 => "Temporary Redirect"
  | 308 => "Permanent Redirect"
  | 400 => "Bad Request" | 401 => "Unauthorized" | 402 => "Payment Required" | 403 => "Forbidden"
  | 404 => "Not Found" | 405 => "Method Not Allowed" | 406 => "Not Acceptable"
  | 407 => "Proxy Authentication Required" | 408 => "Request Timeout" | 409 => "Conflict"
  | 410 => "Gone" | 411 => "Length Required" | 412 => "Precondition Failed"
  | 413 => "Request Entity Too Large" | 414 => "Request URI Too Long"
  | 415 => "Unsupported Media Type" | 416 => "Requested Range Not Satisfiable"
  | 417 => "Expectation Failed" | 418 => "I'm a teapot" | 421 => "Misdirected Request"
  | 422 => "Unprocessable Entity" | 423 => "Locked" | 424 => "Failed Dependency"
  | 425 => "Too Early" | 426 => "Upgrade Required" | 428 => "Precondition Required"
  | 429 => "Too Many Requests" | 431 => "Request Header Fields Too Large"
  | 451 => "Unavailable For Legal Reasons"
  | 500 => "Internal Server Error" | 501 => "Not Implemented" | 502 => "Bad Gateway"
  | 503 => "Service Unavailable" | 504 => "Gateway Timeout" | 505 => "HTTP Version Not Supported"
  | 506 => "Variant Also Negotiates" | 507 => "Insufficient Storage" | 508 => "Loop Detected"
  | 510 => "Not Extended" | 511 => "Network Authentication Required"
  | _ => ""

/-- Why a request fails. -/
inductive Error where
  | badUrl (raw : String)
  | badBase (base : String)
  | unsupportedScheme (scheme : String)
  | notForFiles (method path : String)
  | unreadable (path : String) (cause : FileError)
  | badMethod (method target : String)
  /-- The request could not be made or got no answer. -/
  | transport (method target : String)
  | status (method target : String) (code : Nat)
  /-- An attempt was interrupted where another one would have been made. -/
  | interrupted
  | unknownAuth (kind : String)
  deriving BEq, DecidableEq, Repr

/-- The wording of a fault. -/
def Error.message : Error → String
  | badUrl raw => "invalid url " ++ Text.quoted raw ++ ": " ++ Format.url.mark
  | badBase base => "invalid base " ++ Text.quoted base ++ ": " ++ Format.url.mark
  | unsupportedScheme scheme => "unsupported scheme " ++ Text.quoted scheme
  | notForFiles method path => method ++ " not supported for local file " ++ path
  | unreadable path cause => "failed to read " ++ path ++ ": " ++ cause.message
  | badMethod method target =>
    method ++ " " ++ target ++ ": net/http: invalid method " ++ Text.quoted method
  | transport method target => method ++ " " ++ target ++ ": " ++ Format.url.mark
  | status method target code =>
    method ++ " " ++ target ++ ": " ++ toString code ++ " " ++ statusPhrase code
  | interrupted => Format.url.mark
  | unknownAuth kind => "unknown auth type " ++ Text.quoted kind

/-- What a fault is about. -/
def Error.concerns : Error → List Concern
  | badUrl _ => [.format .url]
  | badBase _ => [.format .url]
  | transport .. => [.format .url]
  | interrupted => [.format .url]
  | unreadable _ cause => cause.concerns
  | status .. => [.status]
  | _ => []

end PageMacro.Fetch
