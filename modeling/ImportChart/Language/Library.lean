import ImportChart.Language
import ImportChart.Text.Path

/-!
# Standard libraries

The modules that come with a language, as the names of its registry. A registry names whole
families: an entry stands for itself and for every name that continues it after the language's
separator, so `fs` covers `fs/promises` and `java.util` covers `java.util.List`. JavaScript also has
a scheme that marks a name as part of its library.
-/

namespace ImportChart

/-- The names of a standard library. -/
structure Registry where
  /-- The names that stand for themselves and for what continues them. -/
  entries : List String
  /-- The character between a name and what continues it. -/
  separator : Char
  /-- A beginning that marks every name with it. -/
  scheme : Option String

/-- A text's beginnings that end before an occurrence of `sep`, and the text itself. -/
def beginningsBefore (sep : Char) : List Char → List (List Char)
  | [] => [[]]
  | c :: cs => (if c = sep then [[]] else []) ++ (beginningsBefore sep cs).map (c :: ·)

/-- Whether a token names a part of the library. -/
def Registry.contains (registry : Registry) (token : String) : Bool :=
  registry.scheme.any (startsWith · token) ||
    (beginningsBefore registry.separator token.toList).any fun beginning =>
      registry.entries.contains (String.ofList beginning)

/-- Core modules of the JavaScript runtime. -/
def javascriptModules : List String :=
  ["assert", "async_hooks", "buffer", "child_process", "cluster", "console", "crypto", "dgram",
   "diagnostics_channel", "dns", "events", "fs", "http", "http2", "https", "inspector", "module",
   "net", "os", "path", "perf_hooks", "process", "punycode", "querystring", "readline", "repl",
   "stream", "string_decoder", "timers", "tls", "tty", "url", "util", "v8", "vm",
   "worker_threads", "zlib"]

/-- Top-level modules of the Python library. -/
def pythonModules : List String :=
  ["abc", "aifc", "argparse", "array", "ast", "asynchat", "asyncio", "asyncore", "atexit",
   "audioop", "base64", "bdb", "binascii", "binhex", "bisect", "builtins", "bz2", "calendar",
   "cgi", "cgitb", "chunk", "cmath", "cmd", "code", "codecs", "codeop", "collections", "colorsys",
   "compileall", "concurrent", "configparser", "contextlib", "contextvars", "copy", "copyreg",
   "cProfile", "crypt", "csv", "ctypes", "curses", "dataclasses", "datetime", "dbm", "decimal",
   "difflib", "dis", "distutils", "doctest", "email", "encodings", "enum", "errno",
   "faulthandler", "fcntl", "filecmp", "fileinput", "fnmatch", "formatter", "fractions", "ftplib",
   "functools", "gc", "getopt", "getpass", "gettext", "glob", "graphlib", "grp", "gzip",
   "hashlib", "heapq", "hmac", "html", "http", "idlelib", "imaplib", "imghdr", "imp", "importlib",
   "inspect", "io", "ipaddress", "itertools", "json", "keyword", "lib2to3", "linecache", "locale",
   "logging", "lzma", "mailbox", "mailcap", "marshal", "math", "mimetypes", "mmap",
   "modulefinder", "multiprocessing", "netrc", "nis", "nntplib", "numbers", "operator",
   "optparse", "os", "ossaudiodev", "parser", "pathlib", "pdb", "pickle", "pickletools", "pipes",
   "pkgutil", "platform", "plistlib", "poplib", "posix", "posixpath", "pprint", "profile",
   "pstats", "pty", "pwd", "py_compile", "pyclbr", "pydoc", "queue", "quopri", "random", "re",
   "readline", "reprlib", "resource", "rlcompleter", "runpy", "sched", "secrets", "select",
   "selectors", "shelve", "shlex", "shutil", "signal", "site", "smtpd", "smtplib", "sndhdr",
   "socket", "socketserver", "spwd", "sqlite3", "ssl", "stat", "statistics", "string",
   "stringprep", "struct", "subprocess", "sunau", "symbol", "symtable", "sys", "sysconfig",
   "syslog", "tabnanny", "tarfile", "telnetlib", "tempfile", "termios", "test", "textwrap",
   "threading", "time", "timeit", "tkinter", "token", "tokenize", "tomllib", "trace", "traceback",
   "tracemalloc", "tty", "turtle", "turtledemo", "types", "typing", "unicodedata", "unittest",
   "urllib", "uu", "uuid", "venv", "warnings", "wave", "weakref", "webbrowser", "winreg",
   "winsound", "wsgiref", "xdrlib", "xml", "xmlrpc", "zipapp", "zipfile", "zipimport", "zlib",
   "zoneinfo"]

/-- Headers of C, of C++ and of POSIX, with the directory `sys`. -/
def cppHeaders : List String :=
  ["assert.h", "complex.h", "ctype.h", "errno.h", "fenv.h", "float.h", "inttypes.h", "iso646.h",
   "limits.h", "locale.h", "math.h", "setjmp.h", "signal.h", "stdalign.h", "stdarg.h",
   "stdatomic.h", "stdbool.h", "stddef.h", "stdint.h", "stdio.h", "stdlib.h", "stdnoreturn.h",
   "string.h", "tgmath.h", "threads.h", "time.h", "uchar.h", "wchar.h", "wctype.h", "dirent.h",
   "fcntl.h", "pthread.h", "unistd.h", "sys", "algorithm", "any", "array", "atomic", "bitset",
   "cassert", "cctype", "cerrno", "cfloat", "charconv", "chrono", "cinttypes", "climits",
   "clocale", "cmath", "codecvt", "compare", "complex", "concepts", "condition_variable",
   "coroutine", "csetjmp", "csignal", "cstdarg", "cstddef", "cstdint", "cstdio", "cstdlib",
   "cstring", "ctime", "cwchar", "deque", "exception", "execution", "filesystem", "format",
   "forward_list", "fstream", "functional", "future", "initializer_list", "iomanip", "ios",
   "iosfwd", "iostream", "istream", "iterator", "limits", "list", "locale", "map", "memory",
   "memory_resource", "mutex", "new", "numbers", "numeric", "optional", "ostream", "queue",
   "random", "ranges", "ratio", "regex", "scoped_allocator", "set", "shared_mutex",
   "source_location", "span", "sstream", "stack", "stdexcept", "streambuf", "string",
   "string_view", "system_error", "thread", "tuple", "type_traits", "typeindex", "typeinfo",
   "unordered_map", "unordered_set", "utility", "valarray", "variant", "vector", "version"]

/-- Packages of the Java library. -/
def javaPackages : List String :=
  ["java.applet", "java.awt", "java.beans", "java.io", "java.lang", "java.math", "java.net",
   "java.nio", "java.rmi", "java.security", "java.sql", "java.text", "java.time", "java.util",
   "javax.accessibility", "javax.activation", "javax.activity", "javax.annotation",
   "javax.crypto", "javax.imageio", "javax.jws", "javax.lang", "javax.management", "javax.naming",
   "javax.net", "javax.print", "javax.rmi", "javax.script", "javax.security", "javax.sound",
   "javax.sql", "javax.swing", "javax.tools", "javax.transaction", "javax.xml"]

/-- Top-level packages of the Go library. -/
def goPackages : List String :=
  ["archive", "bufio", "bytes", "cmp", "compress", "container", "context", "crypto", "database",
   "debug", "embed", "encoding", "errors", "expvar", "flag", "fmt", "go", "hash", "html", "image",
   "index", "io", "iter", "log", "maps", "math", "mime", "net", "os", "path", "plugin", "reflect",
   "regexp", "runtime", "slices", "sort", "strconv", "strings", "sync", "syscall", "testing",
   "text", "time", "unicode", "unique", "unsafe"]

/-- The standard library of a language. -/
def Language.library : Language → Registry
  | .javascript => { entries := javascriptModules, separator := '/', scheme := some "node:" }
  | .python => { entries := pythonModules, separator := '.', scheme := none }
  | .cpp => { entries := cppHeaders, separator := '/', scheme := none }
  | .java => { entries := javaPackages, separator := '.', scheme := none }
  | .go => { entries := goPackages, separator := '/', scheme := none }

end ImportChart
