/-
  Tracewright.Fragment.Packaged

  The fragments that come with the program, as C source: the head and the
  shared definitions, the handlers by the number of their string arguments,
  the tests that single out processes, and the reads beyond two packets.

  Reference: the templates beside `TemplateStore`.
-/
import Tracewright.Text.Basic

namespace Tracewright.Packaged

/-- The lines of a file, each ended by a line feed. -/
def ofLines (lines : List String) : Text := lines.flatMap fun l => l.toList ++ ['\n']

/-- What stands at the top of every program. -/
def traceHead : Text := ofLines [
  "/*",
  " * trace_head.c -- head of the generated syscall tracing program",
  " *",
  " * This file is copied to the output verbatim, the include below is",
  " * replaced with the contents of trace.h.",
  " */",
  "",
  "#include <uapi/linux/ptrace.h>",
  "#include <uapi/linux/limits.h>",
  "#include <linux/sched.h>",
  "",
  "#include \"trace.h\"",
  "",
  "BPF_PERF_OUTPUT(events);",
  "",
  "/* processes forked by the traced one (full-feature mode) */",
  "BPF_HASH(children_map, u32, u64);",
  "",
  "/* entry events waiting for their syscall to return */",
  "BPF_HASH(tmp_i, u64, struct data_entry_t);",
  ""]

/-- The definitions that all handlers share. -/
def traceDefinitions : Text := ofLines [
  "/*",
  " * trace.h -- data types and helpers shared by all handlers",
  " */",
  "",
  "#define STR_MAX_1\t((1 << 7) - 1)",
  "#define STR_MAX_2\t((1 << 8) - 1)",
  "#define STR_MAX_3\t((1 << 9) - 1)",
  "",
  "enum \x7b",
  "\tE_SC_ENTRY = 0,",
  "\tE_SC_EXIT = 1,",
  "\x7d;",
  "",
  "/* packet_type flags */",
  "#define E_STR_MORE\t(1 << 2)",
  "#define E_STR_END\t(1 << 3)",
  "",
  "struct data_entry_t \x7b",
  "\ts64 type;\t\t/* E_SC_ENTRY */",
  "\tu64 packet_type;",
  "\ts64 sc_id;",
  "\ts64 pid_tid;",
  "\ts64 start_ts_nsec;",
  "\ts64 args[6];",
  "\tchar aux_str[STR_MAX_3 + 1];",
  "\x7d;",
  "",
  "struct data_exit_t \x7b",
  "\ts64 type;\t\t/* E_SC_EXIT */",
  "\tu64 packet_type;",
  "\ts64 sc_id;",
  "\ts64 pid_tid;",
  "\ts64 finish_ts_nsec;",
  "\ts64 ret;",
  "\x7d;",
  "",
  "static __always_inline unsigned long",
  "get_arg(struct pt_regs *ctx, int n)",
  "\x7b",
  "\tswitch (n) \x7b",
  "\tcase 0: return PT_REGS_PARM1(ctx);",
  "\tcase 1: return PT_REGS_PARM2(ctx);",
  "\tcase 2: return PT_REGS_PARM3(ctx);",
  "\tcase 3: return PT_REGS_PARM4(ctx);",
  "\tcase 4: return PT_REGS_PARM5(ctx);",
  "\tdefault: return PT_REGS_PARM6(ctx);",
  "\t\x7d",
  "\x7d",
  "",
  "/*",
  " * READ_AND_SUBMIT_REST -- read and submit string packets beyond the",
  " *                         two read inline by every handler",
  " */",
  "#define READ_AND_SUBMIT_REST(ctx, u, src, offset, size) do \x7b \\",
  "READ_AND_SUBMIT_it_will_be_removed_N_MINUS_2_PACKETS \\",
  "\x7d while (0)",
  ""]

/-- The handler that all system calls leave through. -/
def tracepoints : Text := ofLines [
  "",
  "/*",
  " * tracepoint__raw_syscalls__sys_exit -- syscall's exit handler",
  " */",
  "TRACEPOINT_PROBE(raw_syscalls, sys_exit)",
  "\x7b",
  "\tstruct data_exit_t ev;",
  "",
  "\tPID_CHECK_HOOK",
  "",
  "\tev.type = E_SC_EXIT;",
  "\tev.packet_type = 0;",
  "\tev.sc_id = args->id;",
  "\tev.pid_tid = bpf_get_current_pid_tgid();",
  "\tev.finish_ts_nsec = bpf_ktime_get_ns();",
  "\tev.ret = args->ret;",
  "",
  "\tevents.perf_submit(args, &ev, sizeof(ev));",
  "\treturn 0;",
  "\x7d;"]

/-- The handler of a system call without string arguments. -/
def handler0 : Text := ofLines [
  "",
  "/*",
  " * kprobe__sys_SYSCALL_NAME_filled_for_replace -- SYSCALL_NAME_filled_for_replace() entry handler",
  " */",
  "int",
  "kprobe__sys_SYSCALL_NAME_filled_for_replace(struct pt_regs *ctx)",
  "\x7b",
  "\tstruct data_entry_t u;",
  "",
  "\tPID_CHECK_HOOK",
  "",
  "\tu.type = E_SC_ENTRY;",
  "\tu.packet_type = 0;",
  "\tu.sc_id = SYSCALL_NR;",
  "\tu.pid_tid = bpf_get_current_pid_tgid();",
  "\tu.start_ts_nsec = bpf_ktime_get_ns();",
  "",
  "\tu.args[0] = PT_REGS_PARM1(ctx);",
  "\tu.args[1] = PT_REGS_PARM2(ctx);",
  "\tu.args[2] = PT_REGS_PARM3(ctx);",
  "\tu.args[3] = PT_REGS_PARM4(ctx);",
  "\tu.args[4] = PT_REGS_PARM5(ctx);",
  "\tu.args[5] = PT_REGS_PARM6(ctx);",
  "",
  "\tevents.perf_submit(ctx, &u, sizeof(u));",
  "\treturn 0;",
  "\x7d"]

/-- The handler for one string of fixed length. -/
def handler1Fixed : Text := ofLines [
  "",
  "/*",
  " * kprobe__sys_SYSCALL_NAME_filled_for_replace -- SYSCALL_NAME_filled_for_replace() entry handler",
  " *     reads 1 string argument(s) of a fixed maximum length",
  " */",
  "int",
  "kprobe__sys_SYSCALL_NAME_filled_for_replace(struct pt_regs *ctx)",
  "\x7b",
  "\tstruct data_entry_t u;",
  "\tchar *src;",
  "",
  "\tPID_CHECK_HOOK",
  "",
  "\tu.type = E_SC_ENTRY;",
  "\tu.sc_id = SYSCALL_NR;",
  "\tu.pid_tid = bpf_get_current_pid_tgid();",
  "\tu.start_ts_nsec = bpf_ktime_get_ns();",
  "",
  "\tu.args[0] = PT_REGS_PARM1(ctx);",
  "\tu.args[1] = PT_REGS_PARM2(ctx);",
  "\tu.args[2] = PT_REGS_PARM3(ctx);",
  "\tu.args[3] = PT_REGS_PARM4(ctx);",
  "\tu.args[4] = PT_REGS_PARM5(ctx);",
  "\tu.args[5] = PT_REGS_PARM6(ctx);",
  "",
  "\tsrc = (char *)get_arg(ctx, STR1);",
  "\tu.packet_type = (1 << 4);",
  "\tbpf_probe_read_str(u.aux_str, STR_MAX_1, src);",
  "\tevents.perf_submit(ctx, &u, sizeof(u));",
  "",
  "\treturn 0;",
  "\x7d"]

/-- The handler for one string of any length. -/
def handler1Full : Text := ofLines [
  "",
  "/*",
  " * kprobe__sys_SYSCALL_NAME_filled_for_replace -- SYSCALL_NAME_filled_for_replace() entry handler",
  " *     reads 1 string argument(s) in as many packets as needed",
  " */",
  "int",
  "kprobe__sys_SYSCALL_NAME_filled_for_replace(struct pt_regs *ctx)",
  "\x7b",
  "\tstruct data_entry_t u;",
  "\tchar *src;",
  "",
  "\tPID_CHECK_HOOK",
  "",
  "\tu.type = E_SC_ENTRY;",
  "\tu.sc_id = SYSCALL_NR;",
  "\tu.pid_tid = bpf_get_current_pid_tgid();",
  "\tu.start_ts_nsec = bpf_ktime_get_ns();",
  "",
  "\tu.args[0] = PT_REGS_PARM1(ctx);",
  "\tu.args[1] = PT_REGS_PARM2(ctx);",
  "\tu.args[2] = PT_REGS_PARM3(ctx);",
  "\tu.args[3] = PT_REGS_PARM4(ctx);",
  "\tu.args[4] = PT_REGS_PARM5(ctx);",
  "\tu.args[5] = PT_REGS_PARM6(ctx);",
  "",
  "\tsrc = (char *)get_arg(ctx, STR1);",
  "\t\x7b",
  "\t\tint offset = 0;",
  "",
  "\t\tu.packet_type = E_STR_MORE | (1 << 4);",
  "\t\tbpf_probe_read_str(u.aux_str, STR_MAX_1, src);",
  "\t\tevents.perf_submit(ctx, &u, sizeof(u));",
  "\t\toffset += STR_MAX_1 - 1;",
  "",
  "\t\tif (bpf_probe_read_str(u.aux_str, STR_MAX_1, src + offset) < STR_MAX_1)",
  "\t\t\tu.packet_type = E_STR_END | (1 << 4);",
  "\t\tevents.perf_submit(ctx, &u, sizeof(u));",
  "\t\toffset += STR_MAX_1 - 1;",
  "",
  "\t\tREAD_AND_SUBMIT_REST(ctx, u, src, offset, STR_MAX_1);",
  "\t\x7d",
  "",
  "\treturn 0;",
  "\x7d"]

/-- The handler for two strings of fixed length. -/
def handler2Fixed : Text := ofLines [
  "",
  "/*",
  " * kprobe__sys_SYSCALL_NAME_filled_for_replace -- SYSCALL_NAME_filled_for_replace() entry handler",
  " *     reads 2 string argument(s) of a fixed maximum length",
  " */",
  "int",
  "kprobe__sys_SYSCALL_NAME_filled_for_replace(struct pt_regs *ctx)",
  "\x7b",
  "\tstruct data_entry_t u;",
  "\tchar *src;",
  "",
  "\tPID_CHECK_HOOK",
  "",
  "\tu.type = E_SC_ENTRY;",
  "\tu.sc_id = SYSCALL_NR;",
  "\tu.pid_tid = bpf_get_current_pid_tgid();",
  "\tu.start_ts_nsec = bpf_ktime_get_ns();",
  "",
  "\tu.args[0] = PT_REGS_PARM1(ctx);",
  "\tu.args[1] = PT_REGS_PARM2(ctx);",
  "\tu.args[2] = PT_REGS_PARM3(ctx);",
  "\tu.args[3] = PT_REGS_PARM4(ctx);",
  "\tu.args[4] = PT_REGS_PARM5(ctx);",
  "\tu.args[5] = PT_REGS_PARM6(ctx);",
  "",
  "\tsrc = (char *)get_arg(ctx, STR1);",
  "\tu.packet_type = (1 << 4);",
  "\tbpf_probe_read_str(u.aux_str, STR_MAX_2, src);",
  "\tevents.perf_submit(ctx, &u, sizeof(u));",
  "",
  "\tsrc = (char *)get_arg(ctx, STR2);",
  "\tu.packet_type = (2 << 4);",
  "\tbpf_probe_read_str(u.aux_str, STR_MAX_2, src);",
  "\tevents.perf_submit(ctx, &u, sizeof(u));",
  "",
  "\treturn 0;",
  "\x7d"]

/-- The handler for two strings of any length. -/
def handler2Full : Text := ofLines [
  "",
  "/*",
  " * kprobe__sys_SYSCALL_NAME_filled_for_replace -- SYSCALL_NAME_filled_for_replace() entry handler",
  " *     reads 2 string argument(s) in as many packets as needed",
  " */",
  "int",
  "kprobe__sys_SYSCALL_NAME_filled_for_replace(struct pt_regs *ctx)",
  "\x7b",
  "\tstruct data_entry_t u;",
  "\tchar *src;",
  "",
  "\tPID_CHECK_HOOK",
  "",
  "\tu.type = E_SC_ENTRY;",
  "\tu.sc_id = SYSCALL_NR;",
  "\tu.pid_tid = bpf_get_current_pid_tgid();",
  "\tu.start_ts_nsec = bpf_ktime_get_ns();",
  "",
  "\tu.args[0] = PT_REGS_PARM1(ctx);",
  "\tu.args[1] = PT_REGS_PARM2(ctx);",
  "\tu.args[2] = PT_REGS_PARM3(ctx);",
  "\tu.args[3] = PT_REGS_PARM4(ctx);",
  "\tu.args[4] = PT_REGS_PARM5(ctx);",
  "\tu.args[5] = PT_REGS_PARM6(ctx);",
  "",
  "\tsrc = (char *)get_arg(ctx, STR1);",
  "\t\x7b",
  "\t\tint offset = 0;",
  "",
  "\t\tu.packet_type = E_STR_MORE | (1 << 4);",
  "\t\tbpf_probe_read_str(u.aux_str, STR_MAX_2, src);",
  "\t\tevents.perf_submit(ctx, &u, sizeof(u));",
  "\t\toffset += STR_MAX_2 - 1;",
  "",
  "\t\tif (bpf_probe_read_str(u.aux_str, STR_MAX_2, src + offset) < STR_MAX_2)",
  "\t\t\tu.packet_type = E_STR_END | (1 << 4);",
  "\t\tevents.perf_submit(ctx, &u, sizeof(u));",
  "\t\toffset += STR_MAX_2 - 1;",
  "",
  "\t\tREAD_AND_SUBMIT_REST(ctx, u, src, offset, STR_MAX_2);",
  "\t\x7d",
  "",
  "\tsrc = (char *)get_arg(ctx, STR2);",
  "\t\x7b",
  "\t\tint offset = 0;",
  "",
  "\t\tu.packet_type = E_STR_MORE | (2 << 4);",
  "\t\tbpf_probe_read_str(u.aux_str, STR_MAX_2, src);",
  "\t\tevents.perf_submit(ctx, &u, sizeof(u));",
  "\t\toffset += STR_MAX_2 - 1;",
  "",
  "\t\tif (bpf_probe_read_str(u.aux_str, STR_MAX_2, src + offset) < STR_MAX_2)",
  "\t\t\tu.packet_type = E_STR_END | (2 << 4);",
  "\t\tevents.perf_submit(ctx, &u, sizeof(u));",
  "\t\toffset += STR_MAX_2 - 1;",
  "",
  "\t\tREAD_AND_SUBMIT_REST(ctx, u, src, offset, STR_MAX_2);",
  "\t\x7d",
  "",
  "\treturn 0;",
  "\x7d"]

/-- The handler for three strings of fixed length. -/
def handler3Fixed : Text := ofLines [
  "",
  "/*",
  " * kprobe__sys_SYSCALL_NAME_filled_for_replace -- SYSCALL_NAME_filled_for_replace() entry handler",
  " *     reads 3 string argument(s) of a fixed maximum length",
  " */",
  "int",
  "kprobe__sys_SYSCALL_NAME_filled_for_replace(struct pt_regs *ctx)",
  "\x7b",
  "\tstruct data_entry_t u;",
  "\tchar *src;",
  "",
  "\tPID_CHECK_HOOK",
  "",
  "\tu.type = E_SC_ENTRY;",
  "\tu.sc_id = SYSCALL_NR;",
  "\tu.pid_tid = bpf_get_current_pid_tgid();",
  "\tu.start_ts_nsec = bpf_ktime_get_ns();",
  "",
  "\tu.args[0] = PT_REGS_PARM1(ctx);",
  "\tu.args[1] = PT_REGS_PARM2(ctx);",
  "\tu.args[2] = PT_REGS_PARM3(ctx);",
  "\tu.args[3] = PT_REGS_PARM4(ctx);",
  "\tu.args[4] = PT_REGS_PARM5(ctx);",
  "\tu.args[5] = PT_REGS_PARM6(ctx);",
  "",
  "\tsrc = (char *)get_arg(ctx, STR1);",
  "\tu.packet_type = (1 << 4);",
  "\tbpf_probe_read_str(u.aux_str, STR_MAX_3, src);",
  "\tevents.perf_submit(ctx, &u, sizeof(u));",
  "",
  "\tsrc = (char *)get_arg(ctx, STR2);",
  "\tu.packet_type = (2 << 4);",
  "\tbpf_probe_read_str(u.aux_str, STR_MAX_3, src);",
  "\tevents.perf_submit(ctx, &u, sizeof(u));",
  "",
  "\tsrc = (char *)get_arg(ctx, STR3);",
  "\tu.packet_type = (3 << 4);",
  "\tbpf_probe_read_str(u.aux_str, STR_MAX_3, src);",
  "\tevents.perf_submit(ctx, &u, sizeof(u));",
  "",
  "\treturn 0;",
  "\x7d"]

/-- The handler for three strings of any length. -/
def handler3Full : Text := ofLines [
  "",
  "/*",
  " * kprobe__sys_SYSCALL_NAME_filled_for_replace -- SYSCALL_NAME_filled_for_replace() entry handler",
  " *     reads 3 string argument(s) in as many packets as needed",
  " */",
  "int",
  "kprobe__sys_SYSCALL_NAME_filled_for_replace(struct pt_regs *ctx)",
  "\x7b",
  "\tstruct data_entry_t u;",
  "\tchar *src;",
  "",
  "\tPID_CHECK_HOOK",
  "",
  "\tu.type = E_SC_ENTRY;",
  "\tu.sc_id = SYSCALL_NR;",
  "\tu.pid_tid = bpf_get_current_pid_tgid();",
  "\tu.start_ts_nsec = bpf_ktime_get_ns();",
  "",
  "\tu.args[0] = PT_REGS_PARM1(ctx);",
  "\tu.args[1] = PT_REGS_PARM2(ctx);",
  "\tu.args[2] = PT_REGS_PARM3(ctx);",
  "\tu.args[3] = PT_REGS_PARM4(ctx);",
  "\tu.args[4] = PT_REGS_PARM5(ctx);",
  "\tu.args[5] = PT_REGS_PARM6(ctx);",
  "",
  "\tsrc = (char *)get_arg(ctx, STR1);",
  "\t\x7b",
  "\t\tint offset = 0;",
  "",
  "\t\tu.packet_type = E_STR_MORE | (1 << 4);",
  "\t\tbpf_probe_read_str(u.aux_str, STR_MAX_3, src);",
  "\t\tevents.perf_submit(ctx, &u, sizeof(u));",
  "\t\toffset += STR_MAX_3 - 1;",
  "",
  "\t\tif (bpf_probe_read_str(u.aux_str, STR_MAX_3, src + offset) < STR_MAX_3)",
  "\t\t\tu.packet_type = E_STR_END | (1 << 4);",
  "\t\tevents.perf_submit(ctx, &u, sizeof(u));",
  "\t\toffset += STR_MAX_3 - 1;",
  "",
  "\t\tREAD_AND_SUBMIT_REST(ctx, u, src, offset, STR_MAX_3);",
  "\t\x7d",
  "",
  "\tsrc = (char *)get_arg(ctx, STR2);",
  "\t\x7b",
  "\t\tint offset = 0;",
  "",
  "\t\tu.packet_type = E_STR_MORE | (2 << 4);",
  "\t\tbpf_probe_read_str(u.aux_str, STR_MAX_3, src);",
  "\t\tevents.perf_submit(ctx, &u, sizeof(u));",
  "\t\toffset += STR_MAX_3 - 1;",
  "",
  "\t\tif (bpf_probe_read_str(u.aux_str, STR_MAX_3, src + offset) < STR_MAX_3)",
  "\t\t\tu.packet_type = E_STR_END | (2 << 4);",
  "\t\tevents.perf_submit(ctx, &u, sizeof(u));",
  "\t\toffset += STR_MAX_3 - 1;",
  "",
  "\t\tREAD_AND_SUBMIT_REST(ctx, u, src, offset, STR_MAX_3);",
  "\t\x7d",
  "",
  "\tsrc = (char *)get_arg(ctx, STR3);",
  "\t\x7b",
  "\t\tint offset = 0;",
  "",
  "\t\tu.packet_type = E_STR_MORE | (3 << 4);",
  "\t\tbpf_probe_read_str(u.aux_str, STR_MAX_3, src);",
  "\t\tevents.perf_submit(ctx, &u, sizeof(u));",
  "\t\toffset += STR_MAX_3 - 1;",
  "",
  "\t\tif (bpf_probe_read_str(u.aux_str, STR_MAX_3, src + offset) < STR_MAX_3)",
  "\t\t\tu.packet_type = E_STR_END | (3 << 4);",
  "\t\tevents.perf_submit(ctx, &u, sizeof(u));",
  "\t\toffset += STR_MAX_3 - 1;",
  "",
  "\t\tREAD_AND_SUBMIT_REST(ctx, u, src, offset, STR_MAX_3);",
  "\t\x7d",
  "",
  "\treturn 0;",
  "\x7d"]

/-- The handler of a system call that starts a process. -/
def fork : Text := ofLines [
  "",
  "/*",
  " * kretprobe__sys_SYSCALL_NAME_filled_for_replace -- SYSCALL_NAME_filled_for_replace() exit handler,",
  " *     remembers the new child so that it is traced too",
  " */",
  "int",
  "kretprobe__sys_SYSCALL_NAME_filled_for_replace(struct pt_regs *ctx)",
  "\x7b",
  "\tstruct data_exit_t ev;",
  "\ts64 ret = PT_REGS_RC(ctx);",
  "",
  "\tPID_CHECK_HOOK",
  "",
  "\tif (ret > 0) \x7b",
  "\t\tu32 child = ret;",
  "\t\tu64 parent = bpf_get_current_pid_tgid();",
  "\t\tchildren_map.update(&child, &parent);",
  "\t\x7d",
  "",
  "\tev.type = E_SC_EXIT;",
  "\tev.packet_type = 0;",
  "\tev.sc_id = SYSCALL_NR;",
  "\tev.pid_tid = bpf_get_current_pid_tgid();",
  "\tev.finish_ts_nsec = bpf_ktime_get_ns();",
  "\tev.ret = ret;",
  "",
  "\tevents.perf_submit(ctx, &ev, sizeof(ev));",
  "\treturn 0;",
  "\x7d"]

/-- The handler of a system call that ends a process. -/
def exit : Text := ofLines [
  "",
  "/*",
  " * kprobe__sys_SYSCALL_NAME_filled_for_replace -- SYSCALL_NAME_filled_for_replace() entry handler,",
  " *     forgets the exiting process",
  " */",
  "int",
  "kprobe__sys_SYSCALL_NAME_filled_for_replace(struct pt_regs *ctx)",
  "\x7b",
  "\tstruct data_entry_t u;",
  "\tu32 pid;",
  "",
  "\tPID_CHECK_HOOK",
  "",
  "\tpid = bpf_get_current_pid_tgid() >> 32;",
  "\tchildren_map.delete(&pid);",
  "",
  "\tu.type = E_SC_ENTRY;",
  "\tu.packet_type = 0;",
  "\tu.sc_id = SYSCALL_NR;",
  "\tu.pid_tid = bpf_get_current_pid_tgid();",
  "\tu.start_ts_nsec = bpf_ktime_get_ns();",
  "\tu.args[0] = PT_REGS_PARM1(ctx);",
  "",
  "\tevents.perf_submit(ctx, &u, sizeof(u));",
  "\treturn 0;",
  "\x7d"]

/-- The test for one process. -/
def pidCheckPlain : Text := ofLines [
  "\x7b",
  "\t\tu32 pid = bpf_get_current_pid_tgid() >> 32;",
  "",
  "\t\tif (pid != TRACED_PID)",
  "\t\t\treturn 0;",
  "\t\x7d"]

/-- The test for a process and its children. -/
def pidCheckFamily : Text := ofLines [
  "\x7b",
  "\t\tu32 pid = bpf_get_current_pid_tgid() >> 32;",
  "",
  "\t\tif (pid != TRACED_PID && children_map.lookup(&pid) == NULL)",
  "\t\t\treturn 0;",
  "\t\x7d"]

/-- The test that leaves the generating process out. -/
def pidCheckOwn : Text := ofLines [
  "if ((bpf_get_current_pid_tgid() >> 32) == MY_OWN_PID)",
  "\t\treturn 0;"]

/-- One more read, always submitted. -/
def constBlock : Text := ofLines [
  "\tbpf_probe_read_str((u).aux_str, (size), (src) + (offset)); \\",
  "\tevents.perf_submit((ctx), &(u), sizeof(u)); \\",
  "\t(offset) += (size) - 1; \\"]

/-- One more read, submitted as long as the string goes on. -/
def fullBlock : Text := ofLines [
  "\tif ((u).packet_type & E_STR_MORE) \x7b \\",
  "\t\tif (bpf_probe_read_str((u).aux_str, (size), (src) + (offset)) < (size)) \\",
  "\t\t\t(u).packet_type = E_STR_END | ((u).packet_type & ~E_STR_MORE); \\",
  "\t\tevents.perf_submit((ctx), &(u), sizeof(u)); \\",
  "\t\t(offset) += (size) - 1; \\",
  "\t\x7d \\"]

/-- Every packaged fragment by its file name. -/
def fragments : List (Text × Text) := [
  ("trace_head.c", traceHead),
  ("trace.h", traceDefinitions),
  ("trace_tracepoints.c", tracepoints),
  ("template_0_str.c", handler0),
  ("template_1_str_fixed.c", handler1Fixed),
  ("template_1_str_full.c", handler1Full),
  ("template_2_str_fixed.c", handler2Fixed),
  ("template_2_str_full.c", handler2Full),
  ("template_3_str_fixed.c", handler3Fixed),
  ("template_3_str_full.c", handler3Full),
  ("template_fork.c", fork),
  ("template_exit.c", exit),
  ("pid_check_ff_disabled_hook.c", pidCheckPlain),
  ("pid_check_ff_full_hook.c", pidCheckFamily),
  ("pid_own_hook.c", pidCheckOwn),
  ("macro_const_string_mode.c", constBlock),
  ("macro_full_string_mode.c", fullBlock)]

end Tracewright.Packaged
