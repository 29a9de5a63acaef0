import Templating.Text.Split

/-!
# The runtime text

The support code that every generated unit carries, line by line: the text accumulator, the reply and
session formats, and the entry point of a unit that runs as a process.
-/

namespace Templating.RuntimeText

/-- The imports, the message type and the accumulator type. -/
def declarations : List String := [
  "// Runtime shared by every generated unit. This file is compiled into the",
  "// library and also spliced verbatim into generated sources, so it may only",
  "// depend on `std`.",
  "",
  "use std::collections::BTreeMap;",
  "use std::fmt;",
  "use std::io::\x7bself, Read, Write as _\x7d;",
  "use std::panic::\x7bself, AssertUnwindSafe\x7d;",
  "use std::str::FromStr;",
  "",
  "pub const ENTRY_INITIALIZE: &str = \"initialize\";",
  "pub const ENTRY_TRANSFORM_TEXT: &str = \"transform_text\";",
  "",
  "#[derive(Debug, Clone, PartialEq, Eq)]",
  "pub struct TransformationMessage \x7b",
  "    pub is_warning: bool,",
  "    pub message: String,",
  "\x7d",
  "",
  "/// Text accumulator with an indent stack, an error list and a session.",
  "#[derive(Debug, Default)]",
  "pub struct TextTransformation \x7b",
  "    generated: String,",
  "    ends_with_newline: bool,",
  "    current_indent: String,",
  "    indent_lengths: Vec<usize>,",
  "    errors: Vec<TransformationMessage>,",
  "    session: BTreeMap<String, String>,",
  "    template_file: Option<String>,",
  "\x7d",
  ""]

/-- Writing, indenting, messages, the session and typed parameters. -/
def accumulator : List String := [
  "impl TextTransformation \x7b",
  "    pub fn new() -> Self \x7b",
  "        Self::default()",
  "    \x7d",
  "",
  "    /// Appends `text`. Every line started by this call gets the current",
  "    /// indent; a trailing line break defers the indent to the next write.",
  "    pub fn write(&mut self, text: &str) \x7b",
  "        if text.is_empty() \x7b",
  "            return;",
  "        \x7d",
  "        if (self.generated.is_empty() || self.ends_with_newline) && !self.current_indent.is_empty()",
  "        \x7b",
  "            self.generated.push_str(&self.current_indent);",
  "        \x7d",
  "        self.ends_with_newline = text.ends_with('\\n') || text.ends_with('\\r');",
  "        if self.current_indent.is_empty() \x7b",
  "            self.generated.push_str(text);",
  "            return;",
  "        \x7d",
  "",
  "        let bytes = text.as_bytes();",
  "        let mut line_start = 0;",
  "        let mut index = 0;",
  "        while index < bytes.len() \x7b",
  "            let line_end = match bytes[index] \x7b",
  "                b'\\r' if bytes.get(index + 1) == Some(&b'\\n') => index + 2,",
  "                b'\\r' | b'\\n' => index + 1,",
  "                _ => \x7b",
  "                    index += 1;",
  "                    continue;",
  "                \x7d",
  "            \x7d;",
  "            if line_end < bytes.len() \x7b",
  "                self.generated.push_str(&text[line_start..line_end]);",
  "                self.generated.push_str(&self.current_indent);",
  "                line_start = line_end;",
  "            \x7d",
  "            index = line_end;",
  "        \x7d",
  "        self.generated.push_str(&text[line_start..]);",
  "    \x7d",
  "",
  "    pub fn write_line(&mut self, text: &str) \x7b",
  "        self.write(text);",
  "        self.generated.push('\\n');",
  "        self.ends_with_newline = true;",
  "    \x7d",
  "",
  "    pub fn push_indent(&mut self, indent: &str) \x7b",
  "        self.indent_lengths.push(indent.len());",
  "        self.current_indent.push_str(indent);",
  "    \x7d",
  "",
  "    /// Removes and returns the most recently pushed indent, or `\"\"` when the",
  "    /// stack is empty.",
  "    pub fn pop_indent(&mut self) -> String \x7b",
  "        match self.indent_lengths.pop() \x7b",
  "            Some(length) => \x7b",
  "                let split = self.current_indent.len() - length;",
  "                self.current_indent.split_off(split)",
  "            \x7d",
  "            None => String::new(),",
  "        \x7d",
  "    \x7d",
  "",
  "    pub fn clear_indent(&mut self) \x7b",
  "        self.current_indent.clear();",
  "        self.indent_lengths.clear();",
  "    \x7d",
  "",
  "    pub fn current_indent(&self) -> &str \x7b",
  "        &self.current_indent",
  "    \x7d",
  "",
  "    pub fn generated_text(&self) -> &str \x7b",
  "        &self.generated",
  "    \x7d",
  "",
  "    pub fn take_generated_text(&mut self) -> String \x7b",
  "        self.ends_with_newline = false;",
  "        std::mem::take(&mut self.generated)",
  "    \x7d",
  "",
  "    pub fn error(&mut self, message: impl Into<String>) \x7b",
  "        self.errors.push(TransformationMessage \x7b",
  "            is_warning: false,",
  "            message: message.into(),",
  "        \x7d);",
  "    \x7d",
  "",
  "    pub fn warning(&mut self, message: impl Into<String>) \x7b",
  "        self.errors.push(TransformationMessage \x7b",
  "            is_warning: true,",
  "            message: message.into(),",
  "        \x7d);",
  "    \x7d",
  "",
  "    pub fn errors(&self) -> &[TransformationMessage] \x7b",
  "        &self.errors",
  "    \x7d",
  "",
  "    pub fn session(&self) -> &BTreeMap<String, String> \x7b",
  "        &self.session",
  "    \x7d",
  "",
  "    pub fn set_session(&mut self, session: BTreeMap<String, String>) \x7b",
  "        self.session = session;",
  "    \x7d",
  "",
  "    pub fn session_value(&self, key: &str) -> Option<&str> \x7b",
  "        self.session.get(key).map(String::as_str)",
  "    \x7d",
  "",
  "    pub fn set_session_value(&mut self, key: &str, value: &str) \x7b",
  "        self.session.insert(key.to_string(), value.to_string());",
  "    \x7d",
  "",
  "    /// Parses the session value `name`. A missing value yields the default;",
  "    /// an unparsable one also records an error.",
  "    pub fn parameter_or_default<T: FromStr + Default>(&mut self, name: &str) -> T \x7b",
  "        let Some(raw) = self.session.get(name) else \x7b",
  "            return T::default();",
  "        \x7d;",
  "        match raw.parse::<T>() \x7b",
  "            Ok(value) => value,",
  "            Err(_) => \x7b",
  "                let message = format!(",
  "                    \"parameter '\x7b\x7d' value '\x7b\x7d' is not a valid \x7b\x7d\",",
  "                    name,",
  "                    raw,",
  "                    std::any::type_name::<T>()",
  "                );",
  "                self.error(message);",
  "                T::default()",
  "            \x7d",
  "        \x7d",
  "    \x7d",
  "",
  "    pub fn template_file(&self) -> Option<&str> \x7b",
  "        self.template_file.as_deref()",
  "    \x7d",
  "",
  "    pub fn set_template_file(&mut self, path: &str) \x7b",
  "        self.template_file = Some(path.to_string());",
  "    \x7d",
  "\x7d",
  ""]

/-- The formatted writer and what a template has to provide. -/
def contract : List String := [
  "impl fmt::Write for TextTransformation \x7b",
  "    fn write_str(&mut self, s: &str) -> fmt::Result \x7b",
  "        self.write(s);",
  "        Ok(())",
  "    \x7d",
  "\x7d",
  "",
  "/// Contract every generated transformation satisfies.",
  "pub trait TextTemplate \x7b",
  "    fn transformation(&mut self) -> &mut TextTransformation;",
  "",
  "    fn initialize(&mut self) \x7b\x7d",
  "",
  "    fn transform_text(&mut self) -> String;",
  "\x7d",
  ""]

/-- The reply format. -/
def replies : List String := [
  "/// Line-framed reply a generated program sends back to the host.",
  "#[derive(Debug, Clone, Default, PartialEq, Eq)]",
  "pub struct TransformationReply \x7b",
  "    pub entries: Vec<String>,",
  "    pub messages: Vec<TransformationMessage>,",
  "    pub output: Option<String>,",
  "\x7d",
  "",
  "impl TransformationReply \x7b",
  "    pub fn has_entry(&self, name: &str) -> bool \x7b",
  "        self.entries.iter().any(|entry| entry == name)",
  "    \x7d",
  "",
  "    pub fn render(&self) -> String \x7b",
  "        let mut out = String::new();",
  "        for entry in &self.entries \x7b",
  "            out.push_str(\"@entry \");",
  "            out.push_str(entry);",
  "            out.push('\\n');",
  "        \x7d",
  "        for message in &self.messages \x7b",
  "            out.push_str(if message.is_warning \x7b \"@warning \" \x7d else \x7b \"@error \" \x7d);",
  "            out.push_str(&escape(&message.message));",
  "            out.push('\\n');",
  "        \x7d",
  "        if let Some(output) = &self.output \x7b",
  "            out.push_str(\"@output \");",
  "            out.push_str(&escape(output));",
  "            out.push('\\n');",
  "        \x7d",
  "        out",
  "    \x7d",
  "",
  "    /// Unknown lines are ignored.",
  "    pub fn parse(text: &str) -> Self \x7b",
  "        let mut reply = TransformationReply::default();",
  "        for line in text.lines() \x7b",
  "            let Some((tag, payload)) = line.split_once(' ') else \x7b",
  "                continue;",
  "            \x7d;",
  "            match tag \x7b",
  "                \"@entry\" => reply.entries.push(payload.to_string()),",
  "                \"@error\" | \"@warning\" => reply.messages.push(TransformationMessage \x7b",
  "                    is_warning: tag == \"@warning\",",
  "                    message: unescape(payload),",
  "                \x7d),",
  "                \"@output\" => reply.output = Some(unescape(payload)),",
  "                _ => \x7b\x7d",
  "            \x7d",
  "        \x7d",
  "        reply",
  "    \x7d",
  "\x7d",
  ""]

/-- Escaping and the session format. -/
def sessions : List String := [
  "pub fn escape(text: &str) -> String \x7b",
  "    let mut out = String::with_capacity(text.len());",
  "    for c in text.chars() \x7b",
  "        match c \x7b",
  "            '\\\\' => out.push_str(\"\\\\\\\\\"),",
  "            '\\n' => out.push_str(\"\\\\n\"),",
  "            '\\r' => out.push_str(\"\\\\r\"),",
  "            other => out.push(other),",
  "        \x7d",
  "    \x7d",
  "    out",
  "\x7d",
  "",
  "pub fn unescape(text: &str) -> String \x7b",
  "    let mut out = String::with_capacity(text.len());",
  "    let mut chars = text.chars();",
  "    while let Some(c) = chars.next() \x7b",
  "        if c != '\\\\' \x7b",
  "            out.push(c);",
  "            continue;",
  "        \x7d",
  "        match chars.next() \x7b",
  "            Some('n') => out.push('\\n'),",
  "            Some('r') => out.push('\\r'),",
  "            Some(other) => out.push(other),",
  "            None => out.push('\\\\'),",
  "        \x7d",
  "    \x7d",
  "    out",
  "\x7d",
  "",
  "/// One `key=value` line per entry. `=` inside keys is written as `\\=`.",
  "pub fn render_session(session: &BTreeMap<String, String>) -> String \x7b",
  "    let mut out = String::new();",
  "    for (key, value) in session \x7b",
  "        out.push_str(&escape(key).replace('=', \"\\\\=\"));",
  "        out.push('=');",
  "        out.push_str(&escape(value));",
  "        out.push('\\n');",
  "    \x7d",
  "    out",
  "\x7d",
  "",
  "pub fn parse_session(text: &str) -> BTreeMap<String, String> \x7b",
  "    text.lines()",
  "        .filter_map(split_session_line)",
  "        .map(|(key, value)| (unescape(key), unescape(value)))",
  "        .collect()",
  "\x7d",
  "",
  "/// Splits at the first `=` that is not preceded by an escaping backslash.",
  "fn split_session_line(line: &str) -> Option<(&str, &str)> \x7b",
  "    let mut escaped = false;",
  "    for (index, c) in line.char_indices() \x7b",
  "        match c \x7b",
  "            _ if escaped => escaped = false,",
  "            '\\\\' => escaped = true,",
  "            '=' => return Some((&line[..index], &line[index + 1..])),",
  "            _ => \x7b\x7d",
  "        \x7d",
  "    \x7d",
  "    None",
  "\x7d",
  ""]

/-- Running a template, in place and as a process. -/
def running : List String := [
  "fn panic_message(payload: &(dyn std::any::Any + Send)) -> String \x7b",
  "    if let Some(message) = payload.downcast_ref::<&str>() \x7b",
  "        return (*message).to_string();",
  "    \x7d",
  "    if let Some(message) = payload.downcast_ref::<String>() \x7b",
  "        return message.clone();",
  "    \x7d",
  "    \"unknown panic\".to_string()",
  "\x7d",
  "",
  "/// Runs initialize then transform. Panics become error messages; output is",
  "/// only reported when transform completed.",
  "pub fn run_transformation<T: TextTemplate>(",
  "    template: &mut T,",
  "    session: BTreeMap<String, String>,",
  ") -> TransformationReply \x7b",
  "    let mut reply = TransformationReply \x7b",
  "        entries: vec![ENTRY_INITIALIZE.to_string(), ENTRY_TRANSFORM_TEXT.to_string()],",
  "        ..TransformationReply::default()",
  "    \x7d;",
  "    template.transformation().set_session(session);",
  "",
  "    let initialized = panic::catch_unwind(AssertUnwindSafe(|| template.initialize()));",
  "    if let Err(payload) = initialized \x7b",
  "        template.transformation().error(format!(",
  "            \"\x7b\x7d failed: \x7b\x7d\",",
  "            ENTRY_INITIALIZE,",
  "            panic_message(payload.as_ref())",
  "        ));",
  "    \x7d else \x7b",
  "        match panic::catch_unwind(AssertUnwindSafe(|| template.transform_text())) \x7b",
  "            Ok(output) => reply.output = Some(output),",
  "            Err(payload) => template.transformation().error(format!(",
  "                \"\x7b\x7d failed: \x7b\x7d\",",
  "                ENTRY_TRANSFORM_TEXT,",
  "                panic_message(payload.as_ref())",
  "            )),",
  "        \x7d",
  "    \x7d",
  "",
  "    reply.messages = template.transformation().errors().to_vec();",
  "    reply",
  "\x7d",
  "",
  "/// Entry point of generated executables. Reads the session from stdin and",
  "/// writes the reply to the path given as the first argument, or stdout.",
  "pub fn run_as_process<T: TextTemplate>(mut template: T) -> ! \x7b",
  "    panic::set_hook(Box::new(|_| \x7b\x7d));",
  "    let mut input = String::new();",
  "    let session = match io::stdin().read_to_string(&mut input) \x7b",
  "        Ok(_) => parse_session(&input),",
  "        Err(_) => BTreeMap::new(),",
  "    \x7d;",
  "    let reply = run_transformation(&mut template, session).render();",
  "    let written = match std::env::args().nth(1) \x7b",
  "        Some(path) => std::fs::write(path, reply.as_bytes()),",
  "        None => io::stdout().write_all(reply.as_bytes()),",
  "    \x7d;",
  "    std::process::exit(if written.is_ok() \x7b 0 \x7d else \x7b 1 \x7d)",
  "\x7d"]

def lines : List String :=
  declarations ++ accumulator ++ contract ++ replies ++ sessions ++ running

def text : String :=
  Text.join "\n" lines

end Templating.RuntimeText
