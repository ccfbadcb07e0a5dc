import ShaderChain.Machine.Launch

/-!
# The standard machine

A machine with the usual directories, a device that takes everything, and the
utilities that scripts rely on.
-/

set_option autoImplicit false

namespace ShaderChain.Machine

/-- The utilities of the standard machine. One that the shell has no definition of does nothing
when it is run. -/
def utilityNames : List String :=
  ["[", "arch", "awk", "b2sum", "base32", "base64", "basename", "basenc", "bash", "cat", "chcon",
   "chgrp", "chmod", "chown", "cksum", "cmp", "comm", "cp", "csplit", "cut", "dash", "date", "dd",
   "df", "diff", "dir", "dircolors", "dirname", "du", "echo", "egrep", "env", "expand", "expr",
   "factor", "false", "fgrep", "find", "fmt", "fold", "grep", "groups", "gzip", "head", "hostid",
   "hostname", "id", "install", "join", "kill", "link", "ln", "logname", "ls", "md5sum", "mkdir",
   "mkfifo", "mknod", "mktemp", "more", "mount", "mv", "nice", "nl", "nohup", "nproc", "numfmt",
   "od", "paste", "pathchk", "perl", "pinky", "pr", "printenv", "printf", "ps", "ptx", "pwd",
   "readlink", "realpath", "rm", "rmdir", "runcon", "sed", "seq", "sh", "sha1sum", "sha224sum",
   "sha256sum", "sha384sum", "sha512sum", "shred", "shuf", "sleep", "sort", "split", "stat",
   "stdbuf", "stty", "sum", "sync", "tac", "tail", "tar", "tee", "test", "timeout", "touch", "tr",
   "true", "truncate", "tsort", "tty", "uname", "unexpand", "uniq", "unlink", "users", "vdir",
   "wc", "which", "who", "whoami", "xargs", "yes", "zcat"]

/-- The directories of the standard machine. -/
def standardDirectories : List Location :=
  [⟨["bin"]⟩, ⟨["dev"]⟩, ⟨["etc"]⟩, ⟨["tmp"]⟩, ⟨["usr"]⟩, ⟨["usr", "bin"]⟩]

/-- The files of the standard machine. -/
def standardFiles : Files :=
  ⟨standardDirectories.map (·, .directory) ++
    [(⟨["dev", "null"]⟩, .sink)] ++
    utilityNames.map (fun name => (⟨["usr", "bin", name]⟩, .utility)) ++
    utilityNames.map (fun name => (⟨["bin", name]⟩, .utility))⟩

/-- The standard machine without variables. -/
def standard : Machine := ⟨standardFiles, .root, .empty, 0⟩

end ShaderChain.Machine
