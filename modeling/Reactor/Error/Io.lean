/-! Causes of failure that come from input and output, and the words for them. -/

namespace Reactor

/-- The classes of failure that are known by name. -/
inductive IoErrorKind where
  | addrInUse | addrNotAvailable | alreadyExists | argumentListTooLong | brokenPipe
  | connectionAborted | connectionRefused | connectionReset | crossesDevices | deadlock
  | directoryNotEmpty | executableFileBusy | fileTooLarge | filesystemLoop | hostUnreachable
  | inProgress | interrupted | invalidData | invalidFilename | invalidInput | isADirectory
  | networkDown | networkUnreachable | notADirectory | notConnected | notFound | notSeekable
  | other | outOfMemory | permissionDenied | quotaExceeded | readOnlyFilesystem | resourceBusy
  | staleNetworkFileHandle | storageFull | timedOut | tooManyLinks | uncategorized
  | unexpectedEof | unsupported | wouldBlock | writeZero
  deriving DecidableEq, Repr

/-- What is said of a failure of which only the class is known. -/
def IoErrorKind.message : IoErrorKind → String
  | addrInUse => "address in use"
  | addrNotAvailable => "address not available"
  | alreadyExists => "entity already exists"
  | argumentListTooLong => "argument list too long"
  | brokenPipe => "broken pipe"
  | connectionAborted => "connection aborted"
  | connectionRefused => "connection refused"
  | connectionReset => "connection reset"
  | crossesDevices => "cross-device link or rename"
  | deadlock => "deadlock"
  | directoryNotEmpty => "directory not empty"
  | executableFileBusy => "executable file busy"
  | fileTooLarge => "file too large"
  | filesystemLoop => "filesystem loop or indirection limit (e.g. symlink loop)"
  | hostUnreachable => "host unreachable"
  | inProgress => "in progress"
  | interrupted => "operation interrupted"
  | invalidData => "invalid data"
  | invalidFilename => "invalid filename"
  | invalidInput => "invalid input parameter"
  | isADirectory => "is a directory"
  | networkDown => "network down"
  | networkUnreachable => "network unreachable"
  | notADirectory => "not a directory"
  | notConnected => "not connected"
  | notFound => "entity not found"
  | notSeekable => "seek on unseekable file"
  | other => "other error"
  | outOfMemory => "out of memory"
  | permissionDenied => "permission denied"
  | quotaExceeded => "quota exceeded"
  | readOnlyFilesystem => "read-only filesystem or storage medium"
  | resourceBusy => "resource busy"
  | staleNetworkFileHandle => "stale network file handle"
  | storageFull => "no storage space"
  | timedOut => "timed out"
  | tooManyLinks => "too many links"
  | uncategorized => "uncategorized error"
  | unexpectedEof => "unexpected end of file"
  | unsupported => "unsupported"
  | wouldBlock => "operation would block"
  | writeZero => "write zero"

/-- The classes by name; all but the class of failures that belong to no other. -/
def IoErrorKind.names : List (String × IoErrorKind) :=
  [("AddrInUse", .addrInUse), ("AddrNotAvailable", .addrNotAvailable),
    ("AlreadyExists", .alreadyExists), ("ArgumentListTooLong", .argumentListTooLong),
    ("BrokenPipe", .brokenPipe), ("ConnectionAborted", .connectionAborted),
    ("ConnectionRefused", .connectionRefused), ("ConnectionReset", .connectionReset),
    ("CrossesDevices", .crossesDevices), ("Deadlock", .deadlock),
    ("DirectoryNotEmpty", .directoryNotEmpty), ("ExecutableFileBusy", .executableFileBusy),
    ("FileTooLarge", .fileTooLarge), ("FilesystemLoop", .filesystemLoop),
    ("HostUnreachable", .hostUnreachable), ("InProgress", .inProgress),
    ("Interrupted", .interrupted), ("InvalidData", .invalidData),
    ("InvalidFilename", .invalidFilename), ("InvalidInput", .invalidInput),
    ("IsADirectory", .isADirectory), ("NetworkDown", .networkDown),
    ("NetworkUnreachable", .networkUnreachable), ("NotADirectory", .notADirectory),
    ("NotConnected", .notConnected), ("NotFound", .notFound), ("NotSeekable", .notSeekable),
    ("OutOfMemory", .outOfMemory), ("PermissionDenied", .permissionDenied),
    ("QuotaExceeded", .quotaExceeded), ("ReadOnlyFilesystem", .readOnlyFilesystem),
    ("ResourceBusy", .resourceBusy), ("StaleNetworkFileHandle", .staleNetworkFileHandle),
    ("StorageFull", .storageFull), ("TimedOut", .timedOut), ("TooManyLinks", .tooManyLinks),
    ("UnexpectedEof", .unexpectedEof), ("Unsupported", .unsupported), ("WouldBlock", .wouldBlock),
    ("WriteZero", .writeZero)]

/-- The class of a name. -/
def IoErrorKind.ofName? (name : String) : Option IoErrorKind := IoErrorKind.names.lookup name

structure Errno where
  number : Nat
  deriving DecidableEq, Repr

namespace Errno

def noEntry : Errno := ⟨2⟩
def interrupted : Errno := ⟨4⟩
def again : Errno := ⟨11⟩
def notDirectory : Errno := ⟨20⟩
def isDirectory : Errno := ⟨21⟩
def invalidArgument : Errno := ⟨22⟩
def brokenPipe : Errno := ⟨32⟩
def messageTooLong : Errno := ⟨90⟩
def wrongProtocol : Errno := ⟨91⟩
def operationNotSupported : Errno := ⟨95⟩
def addressInUse : Errno := ⟨98⟩
def addressNotAvailable : Errno := ⟨99⟩
def networkUnreachable : Errno := ⟨101⟩
def connectionReset : Errno := ⟨104⟩
def notConnected : Errno := ⟨107⟩
def connectionRefused : Errno := ⟨111⟩
def inProgress : Errno := ⟨115⟩

/-- The system's own words for an error number. -/
def words (e : Errno) : String :=
  match e.number with
  | 1 => "Operation not permitted"
  | 2 => "No such file or directory"
  | 4 => "Interrupted system call"
  | 5 => "Input/output error"
  | 9 => "Bad file descriptor"
  | 11 => "Resource temporarily unavailable"
  | 12 => "Cannot allocate memory"
  | 13 => "Permission denied"
  | 14 => "Bad address"
  | 20 => "Not a directory"
  | 21 => "Is a directory"
  | 22 => "Invalid argument"
  | 24 => "Too many open files"
  | 32 => "Broken pipe"
  | 90 => "Message too long"
  | 91 => "Protocol wrong type for socket"
  | 95 => "Operation not supported"
  | 98 => "Address already in use"
  | 99 => "Cannot assign requested address"
  | 101 => "Network is unreachable"
  | 103 => "Software caused connection abort"
  | 104 => "Connection reset by peer"
  | 107 => "Transport endpoint is not connected"
  | 110 => "Connection timed out"
  | 111 => "Connection refused"
  | 113 => "No route to host"
  | 115 => "Operation now in progress"
  | n => "Unknown error " ++ toString n

end Errno

/-- A failure of input or output: one of a known class, one with a text of its own, or one
reported by the operating system. -/
inductive IoError where
  | kind (kind : IoErrorKind)
  | other (text : String)
  | system (code : Errno)
  deriving DecidableEq, Repr

namespace IoError

def message : IoError → String
  | kind k => k.message
  | other text => text
  | system code => code.words ++ " (os error " ++ toString code.number ++ ")"

/-- Whether nothing is wrong, but the call would have had to wait. -/
def wouldBlock (e : IoError) : Bool := e = kind .wouldBlock || e = system .again

/-- Whether a connection is not there yet. -/
def connectPending (e : IoError) : Bool :=
  e.wouldBlock || e = kind .notConnected || e = system .notConnected || e = system .inProgress

end IoError

end Reactor
