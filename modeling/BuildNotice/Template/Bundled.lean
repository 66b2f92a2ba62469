
namespace BuildNotice.Template.Bundled

def buildName : String := "default_mail.txt"

def workerName : String := "missing_mail.txt"

def buildText : String :=
  "The Buildbot has detected a \x7b\x7bstatus_detected\x7d\x7d on builder " ++
  "\x7b\x7bbuildername\x7d\x7d while building \x7b\x7bprojects\x7d\x7d.\n" ++
  "Full details are available at:\n" ++
  "    \x7b\x7bbuild_url\x7d\x7d\n" ++
  "\n" ++
  "Buildbot URL: \x7b\x7bbuildbot_url\x7d\x7d\n" ++
  "\n" ++
  "Worker for this Build: \x7b\x7bworkername\x7d\x7d\n" ++
  "\n" ++
  "Build Reason: \x7b\x7bproperty build \"reason\" \"<unknown>\"\x7d\x7d\n" ++
  "Blamelist: \x7b\x7bjoin blamelist\x7d\x7d\n" ++
  "\n" ++
  "\x7b\x7bsummary\x7d\x7d\n" ++
  "\n" ++
  "Sincerely,\n" ++
  " -The Buildbot\n"

def workerText : String :=
  "The Buildbot working for '\x7b\x7bbuildbot_title\x7d\x7d' has noticed that the worker named " ++
  "\x7b\x7bworker.name\x7d\x7d went away.\n" ++
  "\n" ++
  "\x7b\x7b#if (has worker \"last_connection\")\x7d\x7d\n" ++
  "It last disconnected at \x7b\x7bworker.last_connection\x7d\x7d.\n" ++
  "\n" ++
  "\x7b\x7b/if\x7d\x7d\n" ++
  "\x7b\x7b#if (has worker \"workerinfo\")\x7d\x7d\n" ++
  "\x7b\x7b#if (has worker.workerinfo \"admin\")\x7d\x7d\n" ++
  "The admin on record (as reported by WORKER:info/admin)\n" ++
  "was \x7b\x7bworker.workerinfo.admin\x7d\x7d.\n" ++
  "\n" ++
  "\x7b\x7b/if\x7d\x7d\n" ++
  "\x7b\x7b/if\x7d\x7d\n" ++
  "Buildbot URL: \x7b\x7bbuildbot_url\x7d\x7d\n" ++
  "\n" ++
  "Sincerely,\n" ++
  " -The Buildbot\n"

def files (directory : String) : List (String × String) :=
  [(directory ++ "/" ++ buildName, buildText), (directory ++ "/" ++ workerName, workerText)]

end BuildNotice.Template.Bundled
