import CaseHarness.Text.Decimal

/-!
# Messages

Every text that the harness itself writes is a message with its parts as
fields.  Each language renders a message in one step, so the text of a part is
never searched for further parts.
-/

namespace CaseHarness

/-- A text of the harness, together with what it speaks of. -/
inductive Message where
  | about
  | languageHelp
  | configHelp
  | timeoutHelp
  | reportHelp
  | verboseHelp
  | invocationHelp
  | usage
  | caseNotFound (path : String)
  | caseUnreadable (path : String)
  | caseDirectoryUnresolved (path : String)
  | invalidExitCode (line : Nat) (value : String)
  | configUnreadable (path : String)
  | configMalformed (path : String)
  | programNotFound (path : String)
  | spawnFailed (program : String)
  | reportUnwritable (path : String)
  | command (line : String)
  | workingDirectory (path : String)
  | timeLimit (seconds : String)
  | checkNotFound (line : Nat) (pattern : String)
  | nonZeroExit (code : Int)
  | exitMismatch (actual expected : Int)
  | unexpectedSuccess
  | timedOut (seconds : String)
  | passed (name : String)
  | failed (name : String) (count : Nat)
  | reportWritten (path : String)
  deriving DecidableEq, Repr

namespace Message

open Text.Numeral (decimal signedDecimal)

def english : Message → String
  | about =>
      "Run a program against a test-case file and check its output against the file's directives"
  | languageHelp => "Language for harness messages (e.g. en, zh-CN)"
  | configHelp => "Path to an optional TOML configuration file"
  | timeoutHelp => "Kill the program after this many seconds"
  | reportHelp => "Write a JSON verification report to this path"
  | verboseHelp => "Print the resolved command line and working directory before running"
  | invocationHelp => "The program, its arguments, and the test-case file (last)"
  | usage => "Usage: tcf-runner [OPTIONS] <program> [program-args...] <TCF>"
  | caseNotFound path => "TCF file not found: " ++ path
  | caseUnreadable path => "Failed to read test case file: " ++ path
  | caseDirectoryUnresolved path =>
      "Failed to resolve the directory of test case file: " ++ path
  | invalidExitCode line value =>
      "Invalid exit code on line " ++ decimal line ++ ": '" ++ value ++ "'"
  | configUnreadable path => "Failed to read config file: " ++ path
  | configMalformed path => "Failed to parse config file: " ++ path
  | programNotFound path => "Program not found: " ++ path
  | spawnFailed program => "Failed to run '" ++ program ++ "'"
  | reportUnwritable path => "Failed to write report: " ++ path
  | command line => "Command: " ++ line
  | workingDirectory path => "Working directory: " ++ path
  | timeLimit seconds => "Timeout: " ++ seconds ++ "s"
  | checkNotFound line pattern =>
      "CHECK on line " ++ decimal line ++ " not found: " ++ pattern
  | nonZeroExit code =>
      "Test returned non-zero exit code (" ++ signedDecimal code ++ "), full output below."
  | exitMismatch actual expected =>
      "Exit code " ++ signedDecimal actual ++ " does not match expected value of " ++
        signedDecimal expected
  | unexpectedSuccess => "Test was expected to abort but exited with code 0"
  | timedOut seconds => "Test timed out after " ++ seconds ++ "s"
  | passed name => "PASS: " ++ name
  | failed name count => "FAIL: " ++ name ++ " (" ++ decimal count ++ " failure(s))"
  | reportWritten path => "Report written to " ++ path

def chinese : Message → String
  | about => "针对测试用例文件运行程序，并根据文件中的指令检查其输出"
  | languageHelp => "测试工具消息所使用的语言（例如 en、zh-CN）"
  | configHelp => "可选的 TOML 配置文件路径"
  | timeoutHelp => "程序运行超过该秒数后将被终止"
  | reportHelp => "将 JSON 格式的验证报告写入此路径"
  | verboseHelp => "运行前打印解析后的命令行和工作目录"
  | invocationHelp => "要运行的程序、其参数以及测试用例文件（最后一个）"
  | usage => "用法: tcf-runner [选项] <program> [program-args...] <TCF>"
  | caseNotFound path => "未找到 TCF 文件: " ++ path
  | caseUnreadable path => "读取测试用例文件失败: " ++ path
  | caseDirectoryUnresolved path => "无法解析测试用例文件所在目录: " ++ path
  | invalidExitCode line value =>
      "第 " ++ decimal line ++ " 行的退出码无效: '" ++ value ++ "'"
  | configUnreadable path => "读取配置文件失败: " ++ path
  | configMalformed path => "解析配置文件失败: " ++ path
  | programNotFound path => "未找到程序: " ++ path
  | spawnFailed program => "运行 '" ++ program ++ "' 失败"
  | reportUnwritable path => "写入报告失败: " ++ path
  | command line => "命令: " ++ line
  | workingDirectory path => "工作目录: " ++ path
  | timeLimit seconds => "超时: " ++ seconds ++ " 秒"
  | checkNotFound line pattern =>
      "第 " ++ decimal line ++ " 行的 CHECK 未找到: " ++ pattern
  | nonZeroExit code =>
      "测试返回了非零退出码 (" ++ signedDecimal code ++ ")，完整输出如下。"
  | exitMismatch actual expected =>
      "退出码 " ++ signedDecimal actual ++ " 与预期值 " ++ signedDecimal expected ++ " 不符"
  | unexpectedSuccess => "测试预期会异常终止，但以退出码 0 正常退出"
  | timedOut seconds => "测试在 " ++ seconds ++ " 秒后超时"
  | passed name => "通过: " ++ name
  | failed name count => "失败: " ++ name ++ "（" ++ decimal count ++ " 项失败）"
  | reportWritten path => "报告已写入 " ++ path

end Message

end CaseHarness
