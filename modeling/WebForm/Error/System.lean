import WebForm.Text.Quoted
import WebForm.Text.Utf8

/-!
# System errors

A system error comes with a number, a text and up to two names of files. Some numbers have labels of
their own. Numbers compare as numbers or by the names that systems give them.
-/
namespace WebForm

inductive Detail where
  | absent
  | truth (b : Bool)
  | number (i : Int)
  | text (s : String)
  | octets (bs : Text.Octets)
  deriving DecidableEq, Repr

def Detail.quoted : Detail → String
  | .absent => "None"
  | .truth b => if b then "True" else "False"
  | .number i => toString i
  | .text s => Text.quoted s
  | .octets bs => Text.quotedOctets bs

def Detail.plain : Detail → String
  | .text s => s
  | d => d.quoted

def quotedTuple : List String → String
  | [p] => "(" ++ p ++ ",)"
  | ps => "(" ++ Text.commaSeparated ps ++ ")"

namespace Detail

def number? : Detail → Option Int
  | number i => some i
  | truth b => some (if b then 1 else 0)
  | _ => none

/-- Truths are numbers. -/
def same (d e : Detail) : Bool :=
  match d.number?, e.number? with
  | some i, some j => i == j
  | none, none => d == e
  | _, _ => false

def sameAll : List Detail → List Detail → Bool
  | [], [] => true
  | d :: ds, e :: es => d.same e && sameAll ds es
  | _, _ => false

end Detail

def systemNames : List (Int × String) :=
  [(1, "EPERM"), (2, "ENOENT"), (3, "ESRCH"), (4, "EINTR"), (5, "EIO"), (6, "ENXIO"), (7, "E2BIG"),
   (8, "ENOEXEC"), (9, "EBADF"), (10, "ECHILD"), (11, "EAGAIN"), (12, "ENOMEM"), (13, "EACCES"),
   (14, "EFAULT"), (15, "ENOTBLK"), (16, "EBUSY"), (17, "EEXIST"), (18, "EXDEV"), (19, "ENODEV"),
   (20, "ENOTDIR"), (21, "EISDIR"), (22, "EINVAL"), (23, "ENFILE"), (24, "EMFILE"), (25, "ENOTTY"),
   (26, "ETXTBSY"), (27, "EFBIG"), (28, "ENOSPC"), (29, "ESPIPE"), (30, "EROFS"), (31, "EMLINK"),
   (32, "EPIPE"), (33, "EDOM"), (34, "ERANGE"), (35, "EDEADLOCK"), (36, "ENAMETOOLONG"),
   (37, "ENOLCK"), (38, "ENOSYS"), (39, "ENOTEMPTY"), (40, "ELOOP"), (42, "ENOMSG"), (43, "EIDRM"),
   (44, "ECHRNG"), (45, "EL2NSYNC"), (46, "EL3HLT"), (47, "EL3RST"), (48, "ELNRNG"),
   (49, "EUNATCH"), (50, "ENOCSI"), (51, "EL2HLT"), (52, "EBADE"), (53, "EBADR"), (54, "EXFULL"),
   (55, "ENOANO"), (56, "EBADRQC"), (57, "EBADSLT"), (59, "EBFONT"), (60, "ENOSTR"),
   (61, "ENODATA"), (62, "ETIME"), (63, "ENOSR"), (64, "ENONET"), (65, "ENOPKG"), (66, "EREMOTE"),
   (67, "ENOLINK"), (68, "EADV"), (69, "ESRMNT"), (70, "ECOMM"), (71, "EPROTO"), (72, "EMULTIHOP"),
   (73, "EDOTDOT"), (74, "EBADMSG"), (75, "EOVERFLOW"), (76, "ENOTUNIQ"), (77, "EBADFD"),
   (78, "EREMCHG"), (79, "ELIBACC"), (80, "ELIBBAD"), (81, "ELIBSCN"), (82, "ELIBMAX"),
   (83, "ELIBEXEC"), (84, "EILSEQ"), (85, "ERESTART"), (86, "ESTRPIPE"), (87, "EUSERS"),
   (88, "ENOTSOCK"), (89, "EDESTADDRREQ"), (90, "EMSGSIZE"), (91, "EPROTOTYPE"),
   (92, "ENOPROTOOPT"), (93, "EPROTONOSUPPORT"), (94, "ESOCKTNOSUPPORT"), (95, "ENOTSUP"),
   (96, "EPFNOSUPPORT"), (97, "EAFNOSUPPORT"), (98, "EADDRINUSE"), (99, "EADDRNOTAVAIL"),
   (100, "ENETDOWN"), (101, "ENETUNREACH"), (102, "ENETRESET"), (103, "ECONNABORTED"),
   (104, "ECONNRESET"), (105, "ENOBUFS"), (106, "EISCONN"), (107, "ENOTCONN"), (108, "ESHUTDOWN"),
   (109, "ETOOMANYREFS"), (110, "ETIMEDOUT"), (111, "ECONNREFUSED"), (112, "EHOSTDOWN"),
   (113, "EHOSTUNREACH"), (114, "EALREADY"), (115, "EINPROGRESS"), (116, "ESTALE"),
   (117, "EUCLEAN"), (118, "ENOTNAM"), (119, "ENAVAIL"), (120, "EISNAM"), (121, "EREMOTEIO"),
   (122, "EDQUOT"), (123, "ENOMEDIUM"), (124, "EMEDIUMTYPE"), (125, "ECANCELED"), (126, "ENOKEY"),
   (127, "EKEYEXPIRED"), (128, "EKEYREVOKED"), (129, "EKEYREJECTED"), (130, "EOWNERDEAD"),
   (131, "ENOTRECOVERABLE"), (132, "ERFKILL")]

def systemLabel : Int → String
  | 1 | 13 => "PermissionError"
  | 2 => "FileNotFoundError"
  | 3 => "ProcessLookupError"
  | 4 => "InterruptedError"
  | 10 => "ChildProcessError"
  | 11 | 114 | 115 => "BlockingIOError"
  | 17 => "FileExistsError"
  | 20 => "NotADirectoryError"
  | 21 => "IsADirectoryError"
  | 32 | 108 => "BrokenPipeError"
  | 103 => "ConnectionAbortedError"
  | 104 => "ConnectionResetError"
  | 110 => "TimeoutError"
  | 111 => "ConnectionRefusedError"
  | _ => "OSError"

structure SystemError where
  code : Detail
  text : Detail
  file : Option Detail
  otherFile : Option Detail
  deriving DecidableEq, Repr

namespace SystemError

def labelOf (code : Detail) : String := (code.number?.map systemLabel).getD "OSError"

/-- Whether a detail after number and text names a file. What would block may say instead how much
was written. -/
def isFile (code d : Detail) : Bool :=
  d ≠ .absent && !(labelOf code == "BlockingIOError" && d.number?.isSome)

/-- Two to five details make a system error; the fourth is not used. -/
def ofDetails? : List Detail → Option SystemError
  | code :: text :: more =>
    if 3 < more.length then none
    else
      let file := (more[0]?).filter (isFile code)
      some ⟨code, text, file, if file.isSome then (more[2]?).filter (· ≠ .absent) else none⟩
  | _ => none

def label (e : SystemError) : String := labelOf e.code

def message (e : SystemError) : String :=
  "[Errno " ++ e.code.plain ++ "] " ++ e.text.plain ++
    (match e.file, e.otherFile with
      | some f, some g => ": " ++ f.quoted ++ " -> " ++ g.quoted
      | some f, none => ": " ++ f.quoted
      | none, _ => "")

def codeKey (e : SystemError) : Detail :=
  match e.code with
  | .text s => ((systemNames.find? (·.2 = s)).map fun n => .number n.1).getD e.code
  | c => c

end SystemError

end WebForm
